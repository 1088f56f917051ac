import Mathlib.Logic.Function.Basic
import PqComm.Layers.Gate
import PqComm.Layers.SessionEnc
import PqComm.Engine.Control

/-!
# Queues, and the senders of data packets

`scheduler.c`, `route_table.c`, `relay.c` and the sending halves of
`audio_worker.c`, `video_worker.c` and `file_transfer.c`.

Every sender of data builds a packet without flags and passes it to
`session_enc_apply`.  The chat sender and the relay give up when that fails;
the media and file senders ignore its result and send what they have.
-/

namespace PqComm

open Lib

/-! ## `scheduler.c` -/

/-- The rings of `tx_queues_t`, in the order in which they are served. -/
inductive TxQueue where
  | control
  | audio
  | chat
  | file
  | video
  | fake
  deriving DecidableEq, Repr

/-- `tx_queues_t`. -/
abbrev TxQueues := TxQueue → List PacketBuf

/-- `tx_queues_init`. -/
def txQueuesInit : TxQueues := fun _ => []

/-- The queues in the order of `scheduler_next`. -/
def txOrder : List TxQueue :=
  [.control, .audio, .chat, .file, .video, .fake]

/-- `scheduler_next`. -/
def schedulerNext (q : TxQueues) : Option (PacketBuf × TxQueues) :=
  txOrder.findSome? fun queue =>
    match q queue with
    | [] => none
    | p :: rest => some (p, Function.update q queue rest)

/-! ## `route_table.c` -/

def maxRoutes : Nat := 16
def relayNodeIdUnknown : UInt64 := 0
def relayNodeResponder : UInt64 := 2

/-- `route_entry_t`; only valid entries are in a table. -/
structure RouteEntry where
  nodeId : UInt64
  sessionId : UInt64
  addr : Bytes
  addrLen : Nat

/-- `route_table_find`. -/
def routeTableFind (rt : List RouteEntry) (nodeId : UInt64) :
    Option RouteEntry :=
  rt.find? fun entry => entry.nodeId == nodeId

/-- `route_table_add`: the result and the table. -/
def routeTableAdd (rt : List RouteEntry) (nodeId sessionId : UInt64)
    (addr : Bytes) (addrLen : Nat) : Int × List RouteEntry :=
  let entry : RouteEntry :=
    { nodeId := nodeId, sessionId := sessionId, addr := addr
      addrLen := addrLen }
  if nodeId = 0 then
    (-1, rt)
  else
    match rt.findIdx? fun entry => entry.nodeId == nodeId with
    | some i => (1, rt.set i entry)
    | none =>
        if rt.length ≥ maxRoutes then
          (-1, rt)
        else
          (0, rt ++ [entry])

section

variable (C : CryptoSuite)

/-! ## Sealing without looking at the result -/

/-- `if (packet_parse(p, &view) == 0) session_enc_apply(p, &view, sess)`. -/
def sealTx (p : PacketBuf) (sess : Session) : PacketBuf :=
  match packetParse p with
  | none => p
  | some v => (sessionEncApply C p v sess).2

/-! ## `relay.c` -/

/-- What `relay_forward_route` leaves: its result, the counter and the packet
it pushes on the chat queue, with the payload it was built from. -/
structure RelayOut where
  ret : Nat
  seq : UInt32
  out : Option (PacketBuf × UInt8 × Bytes) := none

/-- `relay_forward_route`.  The route only has to exist; the packet goes to
the peer of the engine. -/
def relayForwardRoute
    (v : PacketView) (sess : Session) (rt : List RouteEntry)
    (buf : Option PacketBuf) (seq : UInt32) (peerAddr : Bytes) : RelayOut :=
  let dest := UInt64.ofNat (leNat (memSlice v.buf.data (v.payload + 1) 8))
  if v.length < 10 then
    { ret := 0, seq := seq }
  else if v.payloadAt 0 ≠ ctrlRouteData then
    { ret := 0, seq := seq }
  else if dest = relayNodeIdUnknown then
    { ret := 0, seq := seq }
  else
    match routeTableFind rt dest, buf with
    | none, _ => { ret := 1, seq := seq }
    | some _, none => { ret := 1, seq := seq }
    | some _, some buf =>
        let channel := v.payloadAt 9
        let inner :=
          memSlice v.buf.data (v.payload + 10) (min (v.length - 10) 1024)
        let fwd := buildPacket buf true 0 sess.sessionId channel seq inner
        match packetParse fwd with
        | none => { ret := 1, seq := seq + 1 }
        | some view =>
            let applied := sessionEncApply C fwd view sess
            if !applied.1 then
              { ret := 1, seq := seq + 1 }
            else
              { ret := 1
                seq := seq + 1
                out := some (applied.2.sendTo peerAddr, channel, inner) }

/-! ## `audio_worker.c` and `video_worker.c` -/

/-- The part of a worker record that decides whether it sends. -/
structure MediaWorker where
  running : Bool
  active : Bool := false

/-- A frame out of the Opus encoder, which is given room for 512 bytes. -/
structure AudioFrame where
  bytes : Bytes
  nonempty : 0 < bytes.length
  fits : bytes.length ≤ 512

/-- What a worker sends: the packet and the frame in it. -/
def mediaPacket
    (sess : Session) (channel : UInt8) (buf : PacketBuf) (seq : UInt32)
    (frame peerAddr : Bytes) : PacketBuf :=
  (sealTx C (buildPacket buf false 0 sess.sessionId channel seq frame)
    sess).sendTo peerAddr

/-- The sending half of `audio_worker_tick`; `frame` is what capture and
encoder return. -/
def audioWorkerTick
    (w : MediaWorker) (sess : Session) (frame : Option AudioFrame)
    (buf : Option PacketBuf) (seq : UInt32) (peerAddr : Bytes) :
    Option (PacketBuf × Bytes) :=
  if !w.running || !w.active then
    none
  else
    match frame, buf with
    | some frame, some buf =>
        some
          (mediaPacket C sess chAudio buf seq frame.bytes peerAddr,
            frame.bytes)
    | _, _ => none

/-- The sending half of `video_worker_tick`. -/
def videoWorkerTick
    (w : MediaWorker) (sess : Session) (frame : Option Bytes)
    (buf : Option PacketBuf) (seq : UInt32) (peerAddr : Bytes) :
    Option (PacketBuf × Bytes) :=
  if !w.running || !w.active then
    none
  else
    match frame, buf with
    | some frame, some buf =>
        if frame.length > 0 then
          some (mediaPacket C sess chVideo buf seq frame peerAddr, frame)
        else
          none
    | _, _ => none

end

/-! ## `file_transfer.c`, sending -/

def fileChunkSize : Nat := 1024
def fileTransferMax : Nat := 4

/-- `file_meta_t`. -/
structure FileMeta where
  filename : Bytes
  totalSize : UInt32
  totalChunks : UInt32
  checksum : UInt32

/-- `file_send_t`. -/
structure FileSend where
  details : FileMeta
  chunksSent : UInt32 := 0
  active : Bool := false

/-- A file that can be opened and read. -/
structure DiskFile where
  basename : Bytes
  content : Bytes

/-- `file_checksum`. -/
def fileChecksum (data : Bytes) : UInt32 :=
  data.foldl (fun sum byte => sum * 31 + byte.toUInt32) 0

/-- The loop of `file_send_start`: one unit of fuel is one chunk. -/
def fileChecksumLoop : Nat → Bytes → UInt32 → UInt32
  | 0, _, sum => sum
  | fuel + 1, content, sum =>
      if content.length = 0 then
        sum
      else
        fileChecksumLoop fuel (content.drop fileChunkSize)
          (sum * 31 + fileChecksum (content.take fileChunkSize))

/-- `file_send_start`: the table with the new transfer at its end.  The field
`active` of the transfer itself stays zero. -/
def fileSendStart (sends : List FileSend) (file : Option DiskFile) :
    Option (List FileSend) :=
  if sends.length ≥ fileTransferMax then
    none
  else
    match file with
    | none => none
    | some file =>
        if file.content.length = 0 then
          none
        else
          let size := UInt32.ofNat file.content.length
          let read := file.content.take size.toNat
          some
            (sends ++
              [{ details :=
                  { filename := file.basename.take 255
                    totalSize := size
                    totalChunks := (size + 1024 - 1) / 1024
                    checksum := fileChecksumLoop read.length read 0 } }])

/-- `file_send_chunk`: the result, the chunk and the table.  `content` is the
file as it is now, if it can be opened. -/
def fileSendChunk (sends : List FileSend) (idx : Nat)
    (content : Option Bytes) : Int × Bytes × List FileSend :=
  match sends[idx]?, content with
  | some s, some content =>
      if !s.active || decide (s.chunksSent ≥ s.details.totalChunks) then
        (-1, [], sends)
      else
        let offset := (s.chunksSent * 1024).toNat
        let remaining := (s.details.totalSize - s.chunksSent * 1024).toNat
        let size := min remaining fileChunkSize
        let chunk := (content.drop offset).take size
        if chunk.length ≠ size then
          (-1, [], sends)
        else
          let sent := s.chunksSent + 1
          (if sent ≥ s.details.totalChunks then 1 else 0, chunk,
            sends.set idx { s with chunksSent := sent })
  | _, _ => (-1, [], sends)

end PqComm
