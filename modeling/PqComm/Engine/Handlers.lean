import PqComm.Engine.State

/-!
# The packet handlers of the engine

`engine_control_handler` and `engine_responder_handler`.  On a locked session
both try the same handlers in the same order; what none of them consumes goes
to the handshake.  The branch that ignores heartbeats before a time that is
always zero is left out.
-/

namespace PqComm

open Lib

/-- What a handler takes from outside: the time, and a buffer or randomness
for each function that asks for one. -/
structure HandlerEnv where
  now : UInt64
  heartbeatBuf : Option PacketBuf
  reconnectBuf : Option PacketBuf
  hopBuf : Option PacketBuf
  rekey : RekeyEnv
  relayBuf : Option PacketBuf
  ackBuf : Option PacketBuf
  hs : HsEnv

/-- What the handlers of a locked session leave; `consumed` says that the
packet does not go on to the handshake. -/
structure LockedOut where
  consumed : Bool
  sess : Session
  seq : UInt32
  out : Option PacketBuf := none
  event : Option Event := none

/-- `memcpy(&ack_seq, p->data + 25, 4)`. -/
def PacketBuf.ackSeq (p : PacketBuf) : UInt32 :=
  UInt32.ofNat (leNat (memSlice p.data 25 4))

section

variable (C : CryptoSuite)

/-- The inline opcodes, after the four handlers. -/
def lockedInline (env : HandlerEnv) (p : PacketBuf) (s : Session)
    (seq : UInt32) : LockedOut :=
  if p.opcode = ctrlTyping then
    { consumed := true, sess := s, seq := seq
      event := some (.typing env.now) }
  else if p.opcode = ctrlDeliveryAck ∧ p.len ≥ 29 then
    { consumed := true, sess := s, seq := seq
      event := some (.deliveryAck env.now p.ackSeq) }
  else if p.opcode = ctrlReadAck ∧ p.len ≥ 29 then
    { consumed := true, sess := s, seq := seq
      event := some (.readAck env.now p.ackSeq) }
  else
    { consumed := false, sess := s, seq := seq }

/-- A control function whose positive result consumes the packet. -/
def CtlOut.orElse (r : CtlOut) (rest : Session → UInt32 → LockedOut) :
    LockedOut :=
  if r.ret > 0 then
    { consumed := true, sess := r.sess, seq := r.seq, out := r.out }
  else
    rest r.sess r.seq

/-- `port_hop_handle`, with the answer the engine sends to a request. -/
def portHopStep (env : HandlerEnv) (p : PacketBuf) (s : Session)
    (seq : UInt32) : CtlOut :=
  let hop := portHopHandle p s
  if hop.1 = 1 then
    { portHopSendAck hop.2 env.hopBuf seq p.addr with ret := hop.1 }
  else
    { ret := hop.1, sess := hop.2, seq := seq }

/-- The control branch of both handlers on a locked session. -/
def lockedControl (env : HandlerEnv) (p : PacketBuf) (s : Session)
    (seq : UInt32) : LockedOut :=
  (heartbeatHandle p s env.heartbeatBuf seq env.now).orElse fun s seq =>
    (reconnectHandle p s env.reconnectBuf seq env.now).orElse fun s seq =>
      (portHopStep env p s seq).orElse fun s seq =>
        (rekeyHandle C env.rekey p s seq).orElse fun s seq =>
          lockedInline env p s seq

/-! ## Sending on the control channel -/

/-- The common body of `transport_engine_send_typing` and
`transport_engine_send_delivery_ack`. -/
def Engine.sendMessage (e : Engine) (buf : Option PacketBuf)
    (payload : Bytes) : Engine :=
  match e.session, e.sessionIsLocked, buf with
  | some i, true, some buf =>
      let s := e.pool i
      e.commit .control i s (e.seqCounter + 1)
        (some
          ((controlPacket buf true s.sessionId e.seqCounter payload).sendTo
            e.peerAddr))
  | _, _, _ => e

/-- `transport_engine_send_typing`. -/
def transportEngineSendTyping (buf : Option PacketBuf) (e : Engine) :
    Engine :=
  e.sendMessage buf [ctrlTyping]

/-- `transport_engine_send_delivery_ack`. -/
def transportEngineSendDeliveryAck (buf : Option PacketBuf)
    (msgSeq : UInt32) (e : Engine) : Engine :=
  e.sendMessage buf (ctrlDeliveryAck :: leBytes 4 msgSeq.toNat)

/-! ## Data packets -/

/-- The event of a chat packet: at most 1023 bytes of text. -/
def chatEvent (e : Engine) (env : HandlerEnv) (v : PacketView) : Event :=
  .chatReceived env.now (v.payloadBytes.take 1023) e.config.localPort

/-- `relay_forward_route`, with its push on the chat ring. -/
def Engine.relayRoute (e : Engine) (env : HandlerEnv) (v : PacketView)
    (s : Session) : Engine :=
  let r :=
    relayForwardRoute C v s e.routes env.relayBuf e.seqCounter e.peerAddr
  let next := { e with seqCounter := r.seq }
  match r.out with
  | none => next
  | some (p, channel, inner) =>
      next.enqueue 0 .chat
        { pkt := p, origin := .relay, sess := s, seq := e.seqCounter
          channel := channel, body := inner }

/-- The data branch of the handlers; `initiator` tells them apart. -/
def Engine.handleData (e : Engine) (initiator : Bool) (env : HandlerEnv)
    (v : PacketView) (s : Session) : Engine :=
  if s.state ≠ .locked then
    e
  else if v.channelId = chRoute ∧ !initiator then
    e.relayRoute C env v s
  else if v.channelId = chChat then
    let raised :=
      if initiator then e.overwriteEvent (chatEvent e env v)
      else e.pushEvent (chatEvent e env v)
    transportEngineSendDeliveryAck env.ackBuf v.seq raised
  else
    e

/-! ## Control packets -/

/-- The session has just locked. -/
def Engine.noteLocked (e : Engine) (initiator : Bool) (env : HandlerEnv)
    (s : Session) : Engine :=
  let routes :=
    if initiator then
      e.routes
    else
      (routeTableAdd e.routes relayNodeResponder s.sessionId e.peerAddr
        sockaddrIn6Size).2
  { e with sessionIsLocked := true, routes := routes }.pushEvent
    (.connectionStateChanged env.now .handshake .locked)

/-- The handshake end of both handlers. -/
def Engine.handleHandshake (e : Engine) (initiator : Bool) (env : HandlerEnv)
    (i : Nat) (p : PacketBuf) : Engine :=
  let r :=
    if initiator then
      handshakeRunAsInitiator C env.hs (e.pool i) p e.seqCounter
    else
      handshakeRunAsResponder C env.hs (e.pool i) p e.seqCounter
  let next :=
    e.commit .handshake i r.sess r.seq (r.out.map (·.sendTo e.peerAddr))
  if r.sess.state = .locked ∧ !next.sessionIsLocked then
    next.noteLocked initiator env r.sess
  else
    next

/-- What the handlers of a locked session leave behind. -/
def Engine.afterLocked (e : Engine) (i : Nat) (r : LockedOut) : Engine :=
  let next := e.commit .control i r.sess r.seq r.out
  match r.event with
  | none => next
  | some event => next.pushEvent event

/-- The control branch of both handlers. -/
def Engine.handleControl (e : Engine) (initiator : Bool) (env : HandlerEnv)
    (i : Nat) (p : PacketBuf) : Engine :=
  if (e.pool i).state = .locked then
    let r := lockedControl C env p (e.pool i) e.seqCounter
    if r.consumed then
      e.afterLocked i r
    else
      (e.afterLocked i r).handleHandshake C initiator env i p
  else
    e.handleHandshake C initiator env i p

/-- The common body of the two handlers. -/
def Engine.handle (e : Engine) (initiator : Bool) (env : HandlerEnv)
    (p : PacketBuf) : Engine :=
  match e.session, packetParse p with
  | some i, some v =>
      if v.channelId ≠ chControl then
        e.handleData C initiator env v (e.pool i)
      else
        e.handleControl C initiator env i p
  | _, _ => e

/-- `engine_control_handler`. -/
def engineControlHandler (env : HandlerEnv) (e : Engine) (p : PacketBuf) :
    Engine :=
  e.handle C true env p

/-- `engine_responder_handler`. -/
def engineResponderHandler (env : HandlerEnv) (e : Engine) (p : PacketBuf) :
    Engine :=
  e.handle C false env p

end

end PqComm
