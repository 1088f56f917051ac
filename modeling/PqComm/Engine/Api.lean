import PqComm.Engine.Handlers

/-!
# The interface of the engine

The functions of `transport_engine.c` and `transport_api.c` that a program
calls, except `transport_engine_poll`.
-/

namespace PqComm

open Lib

section

variable (C : CryptoSuite)

/-! ## Connections -/

/-- What `transport_engine_connect` takes from outside: the parsed address,
the identity key, a random identifier and a buffer. -/
structure ConnectEnv where
  address : Option Bytes
  key : IdentityKey
  sessionId : UInt64
  buf : Option PacketBuf

/-- `transport_engine_connect`. -/
def transportEngineConnect (env : ConnectEnv) (port : UInt16) (e : Engine) :
    Int × Engine :=
  if !e.initialized ∨ e.session.isSome then
    (-1, e)
  else
    let e := { e with peerAddr := resolvePeer env.address port }
    if env.address.isNone then
      (-1, e)
    else
      let e := { e with roleInitiator := true }
      match e.sessionAlloc e.peerAddr with
      | none => (-1, e)
      | some (i, e) =>
          let s := { e.pool i with localPort := e.config.localPort }
          let s := e.setupPaths s e.peerAddr port
          let s := handshakeInitInitiator s env.key env.sessionId
          let hello := handshakeBuildHello C s env.buf e.seqCounter
          match hello.out with
          | none => (-1, e.setSession i (sessionReset s))
          | some p =>
              (0,
                { e with session := some i, sessionIsLocked := false }.commit
                  .handshake i hello.sess hello.seq
                  (some (p.sendTo e.peerAddr)))

/-- `transport_engine_disconnect`. -/
def transportEngineDisconnect (e : Engine) : Int × Engine :=
  match e.session with
  | none => (-1, e)
  | some i =>
      (0,
        { e.setSession i (sessionReset (e.pool i)) with
          session := none
          sessionIsLocked := false
          seqCounter := 0 })

/-- `transport_engine_start_listener`. -/
def transportEngineStartListener (e : Engine) : Int × Engine :=
  if !e.initialized then (-1, e) else (0, { e with roleInitiator := false })

/-- `transport_engine_send_connect_request`.  The session it replaces is not
reset. -/
def transportEngineSendConnectRequest
    (address : Option Bytes) (port : UInt16) (username displayName : Bytes)
    (buf : Option PacketBuf) (e : Engine) : Int × Engine :=
  if !e.initialized ∨ address.isNone then
    (-1, e)
  else
    let e :=
      { e with peerAddr := resolvePeer address port, roleInitiator := true }
    match e.sessionAlloc e.peerAddr with
    | none => (-1, e)
    | some (i, e) =>
        let s := { e.pool i with localPort := e.config.localPort }
        let r := connRequestBuild s buf e.seqCounter username displayName
        (0,
          { e with session := some i, sessionIsLocked := false }.commit
            .control i r.sess r.seq r.out)

/-- `transport_engine_accept_connection`.  The session has no role. -/
def transportEngineAcceptConnection
    (address : Option Bytes) (port : UInt16) (buf : Option PacketBuf)
    (e : Engine) : Int × Engine :=
  if !e.initialized ∨ address.isNone then
    (-1, e)
  else
    let peerAddr := resolvePeer address port
    match e.sessionAlloc peerAddr with
    | none => (-1, e)
    | some (i, e) =>
        let s := { e.pool i with localPort := e.config.localPort }
        let s := e.setupPaths s peerAddr port
        let e :=
          match e.session with
          | none => e
          | some j => e.setSession j (sessionReset (e.pool j))
        let r := connRequestSendAccept s buf e.seqCounter peerAddr
        (0,
          { e with
            session := some i
            peerAddr := peerAddr
            roleInitiator := false
            sessionIsLocked := false }.commit .control i r.sess r.seq r.out)

/-- `"Declined"`. -/
def textDeclined : Bytes :=
  asciiBytes ['D', 'e', 'c', 'l', 'i', 'n', 'e', 'd']

/-- `transport_engine_decline_connection`. -/
def transportEngineDeclineConnection
    (address : Option Bytes) (port : UInt16) (buf : Option PacketBuf)
    (e : Engine) : Int × Engine :=
  if !e.initialized ∨ address.isNone then
    (-1, e)
  else
    let peerAddr := resolvePeer address port
    match e.sessionAlloc peerAddr with
    | none => (-1, e)
    | some (i, e) =>
        let s := { e.pool i with localPort := e.config.localPort }
        let r :=
          connRequestSendDecline s buf e.seqCounter peerAddr textDeclined
        (0,
          (e.commit .control i r.sess r.seq r.out).setSession i
            (sessionReset r.sess))

/-- `transport_engine_shutdown`; the lock flag stays as it is. -/
def transportEngineShutdown (e : Engine) : Engine :=
  if !e.initialized then
    e
  else
    { e with
      session := none
      audio := { running := false }
      video := { running := false }
      sends := []
      initialized := false }

/-! ## Sending -/

/-- `build_chat_packet`; the text is followed by its terminator. -/
def buildChatPacket (s : Session) (buf : PacketBuf) (seq : UInt32)
    (msg : Bytes) : PacketBuf :=
  buildPacket buf false 0 s.sessionId chChat seq (msg ++ [0])

/-- `fec_tx_after_encrypt`: the session and the parity packet of a completed
group. -/
def fecTxAfterEncrypt (p : PacketBuf) (s : Session) (channel : UInt8)
    (seq : UInt32) (buf : Option PacketBuf) (peerAddr : Bytes) :
    Session × Option PacketBuf :=
  if !s.resilience.fecEnabled then
    (s, none)
  else
    let r := fecTxAccumulate s.resilience p.body seq channel
    let s := { s with resilience := r.1 }
    match r.2, buf with
    | some parity, some buf =>
        (s,
          some
            ((buildPacket buf true packetFlagFecParity s.sessionId channel
              seq parity).sendTo peerAddr))
    | _, _ => (s, none)

/-- The path `transport_engine_send_chat` picks. -/
def Engine.chatPath (e : Engine) (s : Session) : Nat :=
  if e.config.multipathEnabled then
    let path := resilienceSelectPath s.resilience
    if path ≥ e.socketCount then 0 else path
  else
    0

/-- The address of a path.  The alternative one is a static that is set the
first time and never again. -/
def Engine.pathAddr (e : Engine) (path : Nat) : Engine × Bytes :=
  if e.socketCount > 1 ∧ path = 1 then
    let altAddr :=
      if sinPort e.altAddr = [0, 0] then
        setSinPort e.peerAddr (htons (ntohs (sinPort e.peerAddr) + 2))
      else
        e.altAddr
    ({ e with altAddr := altAddr }, altAddr)
  else
    (e, e.peerAddr)

/-- The end of `transport_engine_send_chat`, on an encrypted packet. -/
def Engine.pushChat (e : Engine) (i : Nat) (s : Session) (seq : UInt32)
    (path : Nat) (chat : PacketBuf) (text : Bytes)
    (parityBuf : Option PacketBuf) : Engine :=
  let target := e.pathAddr path
  let fec := fecTxAfterEncrypt chat s chChat seq parityBuf target.2
  let e := target.1.setSession i fec.1
  let e :=
    match fec.2 with
    | none => e
    | some p =>
        e.enqueue path .control
          { pkt := p, origin := .parity, sess := s, seq := seq
            channel := chChat, body := chat.body }
  e.enqueue path .chat
    { pkt := chat.sendTo target.2, origin := .chat, sess := s, seq := seq
      channel := chChat, body := text ++ [0] }

/-- `transport_engine_send_chat`. -/
def transportEngineSendChat (text : Bytes) (buf parityBuf : Option PacketBuf)
    (e : Engine) : Int × Engine :=
  match e.session, e.sessionIsLocked with
  | some i, true =>
      let path := e.chatPath (e.pool i)
      let s :=
        { e.pool i with
          resilience := resilienceRecordTx (e.pool i).resilience path }
      let e := e.setSession i s
      match buf with
      | none => (-1, e)
      | some buf =>
          let seq := e.seqCounter
          let e := { e with seqCounter := seq + 1 }
          let encrypted :=
            encryptTxPacket C (buildChatPacket s buf seq text) s
          if !encrypted.1 then
            (-1, e)
          else
            (0, e.pushChat i s seq path encrypted.2 text parityBuf)
  | _, _ => (-1, e)

/-- The payload of FILE_META. -/
def fileMetaPayload (info : FileMeta) : Bytes :=
  let name := info.filename.take 63
  ctrlFileMeta :: UInt8.ofNat name.length ::
    (name ++ leBytes 4 info.totalSize.toNat ++
      leBytes 4 info.totalChunks.toNat ++ leBytes 4 info.checksum.toNat)

/-- `transport_engine_send_file`. -/
def transportEngineSendFile (file : Option DiskFile)
    (buf : Option PacketBuf) (e : Engine) : Int × Engine :=
  match e.session, e.sessionIsLocked, fileSendStart e.sends file with
  | some i, true, some sends =>
      let e := { e with sends := sends }
      match sends.getLast?, buf with
      | some send, some buf =>
          let s := e.pool i
          let p :=
            (controlPacket buf false s.sessionId e.seqCounter
              (fileMetaPayload send.details)).sendTo e.peerAddr
          (0,
            { e.commit .control i s (e.seqCounter + 1) (some p) with
              curFileSendIdx := some (sends.length - 1) })
      | _, _ => (-1, e)
  | _, _, _ => (-1, e)

/-- `transport_engine_audio_call_start`. -/
def transportEngineAudioCallStart (e : Engine) : Int × Engine :=
  if !e.sessionIsLocked then
    (-1, e)
  else
    (0,
      { e with
        audioCallActive := true, audio := { e.audio with active := true } })

/-- `transport_engine_audio_call_end`. -/
def transportEngineAudioCallEnd (e : Engine) : Engine :=
  { e with
    audioCallActive := false, audio := { e.audio with active := false } }

/-- `transport_engine_video_call_start`. -/
def transportEngineVideoCallStart (e : Engine) : Int × Engine :=
  if !e.sessionIsLocked then
    (-1, e)
  else
    (0,
      { e with
        videoCallActive := true, video := { e.video with active := true } })

/-- `transport_engine_video_call_end`. -/
def transportEngineVideoCallEnd (e : Engine) : Engine :=
  { e with
    videoCallActive := false, video := { e.video with active := false } }

/-- `transport_port_hop`. -/
def transportPortHop (newPort : UInt16) (buf : Option PacketBuf)
    (e : Engine) : Int × Engine :=
  match e.initialized, e.session with
  | true, some i =>
      let r :=
        portHopSendRequest (e.pool i) buf e.seqCounter e.peerAddr newPort
      (0, e.commit .control i r.sess r.seq r.out)
  | _, _ => (-1, e)

/-- `transport_set_fec_enabled`. -/
def transportSetFecEnabled (enabled : Bool) (e : Engine) : Int × Engine :=
  match e.initialized, e.session with
  | true, some i =>
      (0,
        e.setSession i
          { e.pool i with
            resilience :=
              { (e.pool i).resilience with fecEnabled := enabled } })
  | _, _ => (-1, e)

end

end PqComm
