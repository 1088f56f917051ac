import PqComm.Engine.Rekey
import PqComm.Engine.Senders
import PqComm.Handshake.Protocol
import PqComm.Pipeline.Inbound

/-!
# The state of the transport engine

`transport_engine_t` with the globals it works on: the session pool of
`session.c`, the rings of the receive threads and of the crypto worker, and
the tables of the filters.

A pointer to a session is its index in the pool.  A slot is never given back,
so an index names one session for good.

Three fields are history variables: `enqueued` lists what was pushed on a
transmit ring, together with what its builder knew, `handed` lists what
`transport_engine_poll` gave to a handler, together with how it got there, and
`raised` lists the events whose push succeeded.
-/

namespace PqComm

open Lib

/-! ## What the engine sends -/

/-- Who built a packet. -/
inductive Origin where
  | handshake
  | control
  | chat
  | parity
  | relay
  | audio
  | video
  | file
  | decoy
  deriving DecidableEq, Repr

/-- A packet on a transmit ring, the session and the sequence number it was
built with, and its channel and payload before encryption.  The `body` of a
parity packet is the payload of the packet that completed its group. -/
structure TxItem where
  pkt : PacketBuf
  origin : Origin
  sess : Session
  seq : UInt32
  channel : UInt8
  body : Bytes

/-- The record of a message on the control channel. -/
def TxItem.message (origin : Origin) (p : PacketBuf) (sess : Session)
    (seq : UInt32) : TxItem :=
  { pkt := p, origin := origin, sess := sess, seq := seq
    channel := chControl, body := p.body }

/-! ## What the engine receives -/

inductive ConnState where
  | idle
  | connecting
  | handshake
  | locked
  | failed
  deriving DecidableEq, Repr

/-- The events of `transport_event_t` that the engine raises. -/
inductive Event where
  | connectionStateChanged (time : UInt64) (oldState newState : ConnState)
  | chatReceived (time : UInt64) (text : Bytes) (senderPort : UInt16)
  | connectRequest (time : UInt64) (request : Option PendingRequest)
  | connectAccepted (time : UInt64)
  | connectDeclined (time : UInt64)
  | fileTransferComplete (time : UInt64)
  | typing (time : UInt64)
  | deliveryAck (time : UInt64) (messageSeq : UInt32)
  | readAck (time : UInt64) (messageSeq : UInt32)

/-- `crypto_job_t`; the engine queues nothing but decryptions. -/
structure CryptoJob where
  p : PacketBuf
  sess : Nat

/-- How a packet came to a handler: straight from the gates, or through the
crypto worker, which ran `session_enc_check` on `original` for the session
`sess` when it was in `state`. -/
inductive HandSource where
  | direct
  | checked (original : PacketBuf) (sess : Nat) (state : Session)

/-- A packet given to a handler and the session of the engine then. -/
structure Handed where
  pkt : PacketBuf
  session : Option (Nat × Session)
  source : HandSource

/-! ## The engine -/

/-- The part of `transport_config_t` that the engine reads. -/
structure EngineConfig where
  localPort : UInt16
  localPortAlt : UInt16
  multipathEnabled : Bool
  pathCount : Nat

def maxSessionEntries : Nat := 32

/-- `transport_engine_t` as `transport_engine_init` leaves it when no field is
given. -/
structure Engine where
  config : EngineConfig
  initialized : Bool := true
  socketCount : Nat
  pool : Nat → Session := fun _ => sessionInit
  sessionCount : Nat := 0
  session : Option Nat := none
  seqCounter : UInt32 := 0
  sessionIsLocked : Bool := false
  peerAddr : Bytes := zeros sockaddrIn6Size
  altAddr : Bytes := zeros sockaddrIn6Size
  roleInitiator : Bool := false
  abr : AbrCtx := {}
  routes : List RouteEntry := []
  events : List Event := []
  loopTicks : Nat := 0
  audio : MediaWorker
  video : MediaWorker
  audioCallActive : Bool := false
  videoCallActive : Bool := false
  sends : List FileSend := []
  curFileSendIdx : Option Nat := none
  filters : Filters := {}
  connRequests : ConnRequestTable := default
  rxRings : Nat → List PacketBuf := fun _ => []
  tx : Nat → TxQueues := fun _ => txQueuesInit
  cryptoRing : List CryptoJob := []
  resultRing : List (PacketBuf × HandSource) := []
  enqueued : List TxItem := []
  handed : List Handed := []
  raised : List Event := []

/-- `transport_engine_init`, when the sockets and threads come up.  `audio`
and `video` say whether the workers found a device. -/
def transportEngineInit (config : EngineConfig) (audio video : Bool) :
    Engine :=
  { config := config
    socketCount :=
      if config.multipathEnabled ∧ config.pathCount > 1 then 2 else 1
    audio := { running := audio }
    video := { running := video } }

/-- `ring_push` on a transmit ring. -/
def Engine.enqueue (e : Engine) (path : Nat) (queue : TxQueue)
    (item : TxItem) : Engine :=
  let pushed := ringPush (e.tx path queue) item.pkt
  { e with
    tx :=
      Function.update e.tx path
        (Function.update (e.tx path) queue pushed.2)
    enqueued := if pushed.1 then e.enqueued ++ [item] else e.enqueued }

/-- The session of the engine. -/
def Engine.current (e : Engine) : Option Session :=
  e.session.map e.pool

/-- Replace a session of the pool. -/
def Engine.setSession (e : Engine) (i : Nat) (s : Session) : Engine :=
  { e with pool := Function.update e.pool i s }

/-- A control function has run on session `i`: it leaves the session and the
counter, and may push a message on the control ring of path 0. -/
def Engine.commit (e : Engine) (origin : Origin) (i : Nat) (s : Session)
    (seq : UInt32) (out : Option PacketBuf) : Engine :=
  let next := { e.setSession i s with seqCounter := seq }
  match out with
  | none => next
  | some p => next.enqueue 0 .control (.message origin p s e.seqCounter)

/-- `ring_push` on the event ring. -/
def Engine.pushEvent (e : Engine) (event : Event) : Engine :=
  let pushed := ringPush e.events event
  { e with
    events := pushed.2
    raised := if pushed.1 then e.raised ++ [event] else e.raised }

/-- The chat branch of `engine_control_handler`: an empty event is pushed and
then the newest slot is written, which is an older event when the ring was
full. -/
def Engine.overwriteEvent (e : Engine) (event : Event) : Engine :=
  { e with
    events :=
      if ringFull e.events then e.events.dropLast ++ [event]
      else e.events ++ [event]
    raised :=
      if ringFull e.events then e.raised else e.raised ++ [event] }

/-- `session_alloc_for_peer`. -/
def Engine.sessionAlloc (e : Engine) (addr : Bytes) : Option (Nat × Engine) :=
  if e.sessionCount ≥ maxSessionEntries then
    none
  else
    let s : Session :=
      { sessionInit with
        addr := overlay sessionInit.addr addr
        addrLen := sockaddrIn6Size }
    some
      (e.sessionCount,
        { e.setSession e.sessionCount s with
          sessionCount := e.sessionCount + 1 })

/-- The address `resolve_peer` fills in; `address` is what `inet_pton` made of
the text, a mapped one for IPv4. -/
def resolvePeer (address : Option Bytes) (port : UInt16) : Bytes :=
  [10, 0] ++ htons port ++ zeros 4 ++ address.getD (zeros 16) ++ zeros 4

/-- The path set-up shared by `transport_engine_connect` and
`transport_engine_accept_connection`. -/
def Engine.setupPaths (e : Engine) (s : Session) (peerAddr : Bytes)
    (port : UInt16) : Session :=
  if e.config.multipathEnabled ∧ e.socketCount > 1 then
    let altAddr := setSinPort peerAddr (htons (port + 2))
    let s := sessionRegisterPath s 1 altAddr
    { s with
      resilience :=
        { (s.resilience.setPath 0 fun path =>
            { path with peerPort := sinPort peerAddr }).setPath 1 fun path =>
            { path with peerPort := sinPort altAddr } with
          pathCount := 2
          multipathEnabled := true } }
  else
    { s with resilience := { s.resilience with pathCount := 1 } }

end PqComm
