import PqComm.Engine.Api

/-!
# Polling, the threads and whole runs

`transport_engine_poll`, `crypto_loop` and the steps of the receive and
transmit threads.  `Engine.step` is one call of the interface or one step of a
thread, and a run is any sequence of them from `transport_engine_init`.

The threads of the source run concurrently; here each of their steps is
atomic.  The rings of received data packets are never filled by the engine, so
the branches of `transport_engine_poll` that drain them are left out.
-/

namespace PqComm

open Lib

/-- What one call of `transport_engine_poll` takes from outside. -/
structure PollEnv where
  result : HandlerEnv
  packet : HandlerEnv
  inbound : InboundEnv
  now : UInt64
  heartbeatBuf : Option PacketBuf
  reconnectBuf : Option PacketBuf
  decoyBuf : Option PacketBuf
  decoyNoise : Bytes
  audioFrame : Option AudioFrame
  audioBuf : Option PacketBuf
  videoFrame : Option Bytes
  videoBuf : Option PacketBuf
  fileContent : Option Bytes
  fileBuf : Option PacketBuf

/-- `offensive_build_decoy`. -/
def offensiveBuildDecoy (buf : PacketBuf) (noise target : Bytes) :
    PacketBuf :=
  let len := 24 + (noise.getD 0 0).toNat % 32
  ({ buf with
      len := len
      data :=
        memWrite buf.data 0
          (leBytes 4 decoyMagic ++ noise.take 12 ++
            List.replicate (len - 16) (noise.getD 1 0)) } :
    PacketBuf).sendTo target

section

variable (C : CryptoSuite)

/-! ## Inbound packets -/

/-- The packet goes to the handler of the role. -/
def Engine.hand (e : Engine) (env : HandlerEnv) (p : PacketBuf)
    (source : HandSource) : Engine :=
  let record : Handed :=
    { pkt := p, session := e.session.map fun i => (i, e.pool i)
      source := source }
  let e := { e with handed := e.handed ++ [record] }
  if e.roleInitiator then
    engineControlHandler C env e p
  else
    engineResponderHandler C env e p

/-- One result of the crypto worker goes to its handler. -/
def Engine.takeResult (e : Engine) (env : HandlerEnv) : Engine :=
  match e.resultRing with
  | [] => e
  | (p, source) :: rest => { e with resultRing := rest }.hand C env p source

/-- A control packet that the session gate dropped. -/
def Engine.dropControl (e : Engine) (now : UInt64) (p : PacketBuf) : Engine :=
  if p.data 14 ≠ chControl then
    e
  else if p.opcode = ctrlConnectRequest ∧ !e.roleInitiator then
    -- The handler is called without queues.
    let handled := connRequestHandle e.connRequests p false true now
    let e := { e with connRequests := handled.2 }
    if handled.1 > 0 then
      e.pushEvent (.connectRequest now (connRequestFind e.connRequests p.addr))
    else
      e
  else if p.opcode = ctrlConnectAccept ∧ e.roleInitiator then
    e.pushEvent (.connectAccepted now)
  else if p.opcode = ctrlConnectDecline ∧ e.roleInitiator then
    e.pushEvent (.connectDeclined now)
  else
    e

/-- The tables and the session as the gates leave them. -/
def Engine.afterGates (e : Engine) (pre : PreCrypto) : Engine :=
  match e.session, pre.sess with
  | some i, some s => { e.setSession i s with filters := pre.filters }
  | _, _ => { e with filters := pre.filters }

/-- One packet of a receive ring. -/
def Engine.inbound (e : Engine) (env : PollEnv) (p : PacketBuf) : Engine :=
  let pre :=
    pipelineInboundPreCrypto env.inbound e.filters (e.session.map e.pool) p
  let e := e.afterGates pre
  match pre.view, e.session with
  | some view, some i =>
      if view.encrypted then
        { e with
          cryptoRing :=
            (ringPush e.cryptoRing { p := p, sess := i }).2 }
      else
        e.hand C env.packet p .direct
  | _, _ =>
      if pre.result = .dropSession then
        e.dropControl env.now p
      else
        e

/-- The first receive ring with a packet. -/
def Engine.rxRing (e : Engine) : Option Nat :=
  (List.range e.socketCount).find? fun i => !(e.rxRings i).isEmpty

/-! ## Periodic work -/

/-- The counter of the loop. -/
def Engine.tickLoop (e : Engine) : Engine :=
  { e with
    loopTicks := if e.loopTicks + 1 ≥ 100 then 0 else e.loopTicks + 1 }

def Engine.tickAbr (e : Engine) (now : UInt64) : Engine :=
  match e.session with
  | none => e
  | some i =>
      if e.loopTicks % 30 = 0 then
        let s := e.pool i
        let r := abrUpdate e.abr s.resilience now
        { e.setSession i { s with resilience := r.2 } with abr := r.1 }
      else
        e

def Engine.tickSession (e : Engine) (env : PollEnv) : Engine :=
  match e.session with
  | none => e
  | some i =>
      if e.loopTicks % 10 = 0 then
        let r :=
          heartbeatTick (e.pool i) env.heartbeatBuf e.seqCounter env.now
        let e := e.commit .control i r.sess r.seq r.out
        let r :=
          reconnectTick (e.pool i) env.reconnectBuf e.seqCounter env.now
        e.commit .control i r.sess r.seq r.out
      else
        e

def Engine.tickDecoy (e : Engine) (env : PollEnv) : Engine :=
  match e.session, env.decoyBuf with
  | some i, some buf =>
      if e.loopTicks % 5 = 0 ∧ e.sessionIsLocked then
        e.enqueue 0 .control
          { pkt := offensiveBuildDecoy buf env.decoyNoise e.peerAddr
            origin := .decoy
            sess := e.pool i
            seq := 0
            channel := 0
            body := [] }
      else
        e
  | _, _ => e

def Engine.tickAudio (e : Engine) (env : PollEnv) : Engine :=
  match e.session with
  | none => e
  | some i =>
      if e.sessionIsLocked ∧ e.audioCallActive then
        let s := e.pool i
        match
          audioWorkerTick C e.audio s env.audioFrame env.audioBuf e.seqCounter
            e.peerAddr with
        | none => e
        | some (p, frame) =>
            { e with seqCounter := e.seqCounter + 1 }.enqueue 0 .audio
              { pkt := p, origin := .audio, sess := s, seq := e.seqCounter
                channel := chAudio, body := frame }
      else
        e

def Engine.tickVideo (e : Engine) (env : PollEnv) : Engine :=
  match e.session with
  | none => e
  | some i =>
      if e.sessionIsLocked ∧ e.videoCallActive then
        let s := e.pool i
        match
          videoWorkerTick C e.video s env.videoFrame env.videoBuf e.seqCounter
            e.peerAddr with
        | none => e
        | some (p, frame) =>
            { e with seqCounter := e.seqCounter + 1 }.enqueue 0 .video
              { pkt := p, origin := .video, sess := s, seq := e.seqCounter
                channel := chVideo, body := frame }
      else
        e

/-- A chunk of a file goes out with its number in front. -/
def Engine.sendChunk (e : Engine) (i : Nat) (chunk : Bytes)
    (buf : Option PacketBuf) : Engine :=
  let s := e.pool i
  let seq := e.seqCounter
  let body := leBytes 4 seq.toNat ++ chunk
  let next := { e with seqCounter := seq + 1 }
  match buf with
  | none => next
  | some buf =>
      next.enqueue 0 .file
        { pkt := mediaPacket C s chFile buf seq body e.peerAddr
          origin := .file
          sess := s
          seq := seq
          channel := chFile
          body := body }

def Engine.tickFile (e : Engine) (env : PollEnv) : Engine :=
  match e.session, e.curFileSendIdx with
  | some i, some idx =>
      if e.sessionIsLocked ∧ e.loopTicks % 3 = 0 then
        let r := fileSendChunk e.sends idx env.fileContent
        let e := { e with sends := r.2.2 }
        let e :=
          if r.1 ≥ 0 ∧ r.2.1.length > 0 then
            e.sendChunk C i r.2.1 env.fileBuf
          else
            e
        if r.1 = 1 then
          { e with curFileSendIdx := none }.pushEvent
            (.fileTransferComplete env.now)
        else
          e
      else
        e
  | _, _ => e

/-- The periodic part of `transport_engine_poll`.  `offensive_tick` only
counts. -/
def Engine.ticks (e : Engine) (env : PollEnv) : Engine :=
  (((((e.tickLoop.tickAbr env.now).tickSession env).tickDecoy env).tickAudio
    C env).tickVideo C env).tickFile C env

/-! ## `transport_engine_poll` -/

/-- `transport_engine_poll`: its result, the event it writes and the
engine. -/
def transportEnginePoll (env : PollEnv) (e : Engine) :
    Nat × Option Event × Engine :=
  match e.events with
  | event :: rest => (1, some event, { e with events := rest })
  | [] =>
      let e := e.takeResult C env.result
      match e.rxRing with
      | some i =>
          match e.rxRings i with
          | [] => (1, none, e)
          | p :: rest =>
              (1, none,
                { e with rxRings := Function.update e.rxRings i rest }.inbound
                  C env p)
      | none => (0, none, e.ticks C env)

/-! ## The threads -/

/-- `udp_rx_once` on a datagram that arrived in a buffer. -/
def Engine.receive (e : Engine) (i : Nat) (p : PacketBuf) : Engine :=
  { e with
    rxRings :=
      Function.update e.rxRings i (ringPush (e.rxRings i) p).2 }

/-- The transmit thread of a path takes the next packet. -/
def Engine.transmit (e : Engine) (i : Nat) : Engine :=
  match schedulerNext (e.tx i) with
  | none => e
  | some (_, queues) => { e with tx := Function.update e.tx i queues }

/-- One iteration of `crypto_loop`. -/
def Engine.cryptoWork (e : Engine) : Engine :=
  match e.cryptoRing with
  | [] => e
  | job :: rest =>
      let e := { e with cryptoRing := rest }
      match packetParse job.p with
      | none => e
      | some view =>
          if !view.encrypted then
            e
          else
            let s := e.pool job.sess
            let checked := sessionEncCheck C view s
            let e := e.setSession job.sess checked.1
            match checked.2 with
            | none => e
            | some view =>
                { e with
                  resultRing :=
                    (ringPush e.resultRing
                      (view.buf, .checked job.p job.sess s)).2 }

/-! ## Runs -/

inductive EngineAct where
  | connect (env : ConnectEnv) (port : UInt16)
  | disconnect
  | startListener
  | sendConnectRequest (address : Option Bytes) (port : UInt16)
      (username displayName : Bytes) (buf : Option PacketBuf)
  | acceptConnection (address : Option Bytes) (port : UInt16)
      (buf : Option PacketBuf)
  | declineConnection (address : Option Bytes) (port : UInt16)
      (buf : Option PacketBuf)
  | sendChat (text : Bytes) (buf parityBuf : Option PacketBuf)
  | sendFile (file : Option DiskFile) (buf : Option PacketBuf)
  | sendTyping (buf : Option PacketBuf)
  | sendDeliveryAck (msgSeq : UInt32) (buf : Option PacketBuf)
  | audioCallStart
  | audioCallEnd
  | videoCallStart
  | videoCallEnd
  | portHop (newPort : UInt16) (buf : Option PacketBuf)
  | setFecEnabled (enabled : Bool)
  | poll (env : PollEnv)
  | shutdown
  | receive (path : Nat) (p : PacketBuf)
  | transmit (path : Nat)
  | cryptoWork

def Engine.step (e : Engine) : EngineAct → Engine
  | .connect env port => (transportEngineConnect C env port e).2
  | .disconnect => (transportEngineDisconnect e).2
  | .startListener => (transportEngineStartListener e).2
  | .sendConnectRequest address port username displayName buf =>
      (transportEngineSendConnectRequest address port username displayName
        buf e).2
  | .acceptConnection address port buf =>
      (transportEngineAcceptConnection address port buf e).2
  | .declineConnection address port buf =>
      (transportEngineDeclineConnection address port buf e).2
  | .sendChat text buf parityBuf =>
      (transportEngineSendChat C text buf parityBuf e).2
  | .sendFile file buf => (transportEngineSendFile file buf e).2
  | .sendTyping buf => transportEngineSendTyping buf e
  | .sendDeliveryAck msgSeq buf =>
      transportEngineSendDeliveryAck buf msgSeq e
  | .audioCallStart => (transportEngineAudioCallStart e).2
  | .audioCallEnd => transportEngineAudioCallEnd e
  | .videoCallStart => (transportEngineVideoCallStart e).2
  | .videoCallEnd => transportEngineVideoCallEnd e
  | .portHop newPort buf => (transportPortHop newPort buf e).2
  | .setFecEnabled enabled => (transportSetFecEnabled enabled e).2
  | .poll env => (transportEnginePoll C env e).2.2
  | .shutdown => transportEngineShutdown e
  | .receive path p => e.receive path p
  | .transmit path => e.transmit path
  | .cryptoWork => e.cryptoWork C

def Engine.run (e : Engine) (acts : List EngineAct) : Engine :=
  acts.foldl (Engine.step C) e

end

end PqComm
