import PqComm.Engine.Listening
import PqComm.Engine.SessionMoves

/-!
# Events

Everything that raises an event runs inside `transport_engine_poll`, and only
after the poll has found the event ring empty.  A poll raises at most a
handful of events, so the ring is never full, nothing in it is overwritten,
and the events come out as they were raised.

The result of a poll is another matter.  It is 1 for an event and also for a
packet that was taken from a receive ring, and in the second case nothing was
written for the caller.
-/

namespace PqComm

open Lib

/-! ## What a function adds to the ring -/

/-- `e'` comes from `e` by at most `n` events, all of them queued, and the
receive rings stay as they are. -/
structure Raises (n : Nat) (e e' : Engine) : Prop where
  rxRings : e'.rxRings = e.rxRings
  socketCount : e'.socketCount = e.socketCount
  events :
    e.events.length + n < ringSize →
      ∃ new : List Event, new.length ≤ n ∧ e'.events = e.events ++ new ∧
        e'.raised = e.raised ++ new

section

variable {e f g : Engine} {n m : Nat}

theorem Raises.of_same
    (rxRings : f.rxRings = e.rxRings)
    (socketCount : f.socketCount = e.socketCount)
    (events : f.events = e.events) (raised : f.raised = e.raised) :
    Raises n e f where
  rxRings := rxRings
  socketCount := socketCount
  events _ :=
    ⟨[], Nat.zero_le n, by rw [events, List.append_nil],
      by rw [raised, List.append_nil]⟩

theorem Raises.refl (e : Engine) : Raises n e e :=
  Raises.of_same rfl rfl rfl rfl

theorem Raises.trans
    (first : Raises n e f) (second : Raises m f g) :
    Raises (n + m) e g where
  rxRings := second.rxRings.trans first.rxRings
  socketCount := second.socketCount.trans first.socketCount
  events room := by
    obtain ⟨new, few, events, raised⟩ := first.events (by omega)
    have left : f.events.length + m < ringSize := by
      rw [events, List.length_append]
      omega
    obtain ⟨more, fewMore, events', raised'⟩ := second.events left
    refine ⟨new ++ more, ?_, ?_, ?_⟩
    · rw [List.length_append]
      omega
    · rw [events', events, List.append_assoc]
    · rw [raised', raised, List.append_assoc]

theorem Raises.mono (raises : Raises n e f) (le : n ≤ m) : Raises m e f where
  rxRings := raises.rxRings
  socketCount := raises.socketCount
  events room := by
    obtain ⟨new, few, rest⟩ := raises.events (by omega)
    exact ⟨new, by omega, rest⟩

/-- A ring with room is not full. -/
theorem ringFull_of_room
    {α : Type} {ring : List α} (room : ring.length + 1 < ringSize) :
    ringFull ring = false := by
  simp only [ringFull, decide_eq_false_iff_not, ge_iff_le]
  omega

theorem Raises.pushEvent (event : Event) :
    Raises 1 e (e.pushEvent event) where
  rxRings := rfl
  socketCount := rfl
  events room := by
    have free := ringFull_of_room room
    refine ⟨[event], Nat.le_refl 1, ?_, ?_⟩
    · simp [Engine.pushEvent, ringPush, free]
    · simp [Engine.pushEvent, ringPush, free]

/-- The chat branch writes its own slot as long as there is one. -/
theorem Raises.overwriteEvent (event : Event) :
    Raises 1 e (e.overwriteEvent event) where
  rxRings := rfl
  socketCount := rfl
  events room := by
    have free := ringFull_of_room room
    refine ⟨[event], Nat.le_refl 1, ?_, ?_⟩
    · simp [Engine.overwriteEvent, free]
    · simp [Engine.overwriteEvent, free]

theorem Raises.commit
    (origin : Origin) (i : Nat) (s : Session) (seq : UInt32)
    (out : Option PacketBuf) : Raises 0 e (e.commit origin i s seq out) := by
  cases out with
  | none => exact Raises.of_same rfl rfl rfl rfl
  | some p => exact Raises.of_same rfl rfl rfl rfl

/-! ## The handlers -/

variable (C : CryptoSuite)

theorem Raises.sendMessage (buf : Option PacketBuf) (payload : Bytes) :
    Raises 0 e (e.sendMessage buf payload) := by
  unfold Engine.sendMessage
  split
  · exact Raises.commit _ _ _ _ _
  · exact Raises.refl e

theorem Raises.relayRoute (env : HandlerEnv) (v : PacketView) (s : Session) :
    Raises 0 e (e.relayRoute C env v s) := by
  unfold Engine.relayRoute
  dsimp only
  split
  · exact Raises.of_same rfl rfl rfl rfl
  · exact Raises.of_same rfl rfl rfl rfl

theorem Raises.handleData
    (initiator : Bool) (env : HandlerEnv) (v : PacketView) (s : Session) :
    Raises 1 e (e.handleData C initiator env v s) := by
  unfold Engine.handleData
  split
  · exact Raises.refl e
  · split
    · exact (Raises.relayRoute C env v s).mono (Nat.zero_le 1)
    · split
      · have raised :
            Raises 1 e
              (if initiator then e.overwriteEvent (chatEvent e env v)
              else e.pushEvent (chatEvent e env v)) := by
          split
          · exact Raises.overwriteEvent _
          · exact Raises.pushEvent _
        exact raised.trans (Raises.sendMessage env.ackBuf _)
      · exact Raises.refl e

theorem Raises.handleHandshake
    (initiator : Bool) (env : HandlerEnv) (i : Nat) (p : PacketBuf) :
    Raises 1 e (e.handleHandshake C initiator env i p) := by
  unfold Engine.handleHandshake
  extract_lets r next
  have committed : Raises 0 e next := Raises.commit _ _ _ _ _
  clear_value next
  split
  · have noted :
        Raises 0 next
          { next with
            sessionIsLocked := true
            routes :=
              if initiator then next.routes
              else
                (routeTableAdd next.routes relayNodeResponder
                  r.sess.sessionId next.peerAddr sockaddrIn6Size).2 } :=
      Raises.of_same rfl rfl rfl rfl
    exact (committed.trans noted).trans (Raises.pushEvent _)
  · exact committed.mono (Nat.zero_le 1)

theorem Raises.afterLocked (i : Nat) (r : LockedOut) :
    Raises 1 e (e.afterLocked i r) := by
  have committed : Raises 0 e (e.commit .control i r.sess r.seq r.out) :=
    Raises.commit _ _ _ _ _
  unfold Engine.afterLocked
  dsimp only
  split
  · exact committed.mono (Nat.zero_le 1)
  · exact committed.trans (Raises.pushEvent _)

theorem Raises.handle
    (initiator : Bool) (env : HandlerEnv) (p : PacketBuf) :
    Raises 2 e (e.handle C initiator env p) := by
  unfold Engine.handle
  split
  · rename_i i v _ _
    split
    · exact (Raises.handleData C initiator env v _).mono (by decide)
    · unfold Engine.handleControl
      split
      · have handled :=
          Raises.afterLocked (e := e) i
            (lockedControl C env p (e.pool i) e.seqCounter)
        dsimp only
        split
        · exact handled.mono (by decide)
        · exact handled.trans (Raises.handleHandshake C initiator env i p)
      · exact (Raises.handleHandshake C initiator env i p).mono (by decide)
  · exact Raises.refl e

theorem Raises.hand
    (env : HandlerEnv) (p : PacketBuf) (source : HandSource) :
    Raises 2 e (e.hand C env p source) := by
  unfold Engine.hand
  extract_lets record next
  have recorded : Raises 0 e next := Raises.of_same rfl rfl rfl rfl
  clear_value next
  split
  · exact (recorded.trans (Raises.handle C true env p)).mono (by decide)
  · exact (recorded.trans (Raises.handle C false env p)).mono (by decide)

/-! ## Polling -/

theorem Raises.takeResult (env : HandlerEnv) :
    Raises 2 e (e.takeResult C env) := by
  unfold Engine.takeResult
  split
  · exact Raises.refl e
  · rename_i p source rest _
    have popped : Raises 0 e { e with resultRing := rest } :=
      Raises.of_same rfl rfl rfl rfl
    exact (popped.trans (Raises.hand C env p source)).mono (by decide)

theorem Raises.dropControl (now : UInt64) (p : PacketBuf) :
    Raises 1 e (e.dropControl now p) := by
  unfold Engine.dropControl
  split
  · exact Raises.refl e
  · split
    · rw [connRequestHandle_no_queue]
      exact Raises.refl e
    · split
      · exact Raises.pushEvent _
      · split
        · exact Raises.pushEvent _
        · exact Raises.refl e

theorem Raises.afterGates (pre : PreCrypto) :
    Raises 0 e (e.afterGates pre) := by
  unfold Engine.afterGates
  split
  · exact Raises.of_same rfl rfl rfl rfl
  · exact Raises.of_same rfl rfl rfl rfl

theorem Raises.inbound (env : PollEnv) (p : PacketBuf) :
    Raises 2 e (e.inbound C env p) := by
  unfold Engine.inbound
  extract_lets pre next
  have gated : Raises 0 e next := Raises.afterGates pre
  clear_value next
  split
  · split
    · refine (gated.trans (m := 0) ?_).mono (by decide)
      exact Raises.of_same rfl rfl rfl rfl
    · exact (gated.trans (Raises.hand C env.packet p .direct)).mono
        (by decide)
  · split
    · exact (gated.trans (Raises.dropControl env.now p)).mono (by decide)
    · exact gated.mono (by decide)

theorem Raises.tickSession (env : PollEnv) :
    Raises 0 e (e.tickSession env) := by
  unfold Engine.tickSession
  split
  · exact Raises.refl e
  · split
    · exact (Raises.commit (e := e) _ _ _ _ _).trans
        (Raises.commit _ _ _ _ _)
    · exact Raises.refl e

theorem Raises.tickMedia (env : PollEnv) :
    Raises 0 e (((e.tickDecoy env).tickAudio C env).tickVideo C env) := by
  have decoy : Raises 0 e (e.tickDecoy env) := by
    unfold Engine.tickDecoy
    split
    · split
      · exact Raises.of_same rfl rfl rfl rfl
      · exact Raises.refl e
    · exact Raises.refl e
  have audio (f : Engine) : Raises 0 f (f.tickAudio C env) := by
    unfold Engine.tickAudio
    split
    · exact Raises.refl f
    · split
      · dsimp only
        split
        · exact Raises.refl f
        · exact Raises.of_same rfl rfl rfl rfl
      · exact Raises.refl f
  have video (f : Engine) : Raises 0 f (f.tickVideo C env) := by
    unfold Engine.tickVideo
    split
    · exact Raises.refl f
    · split
      · dsimp only
        split
        · exact Raises.refl f
        · exact Raises.of_same rfl rfl rfl rfl
      · exact Raises.refl f
  exact (decoy.trans (audio _)).trans (video _)

theorem Raises.tickFile (env : PollEnv) : Raises 1 e (e.tickFile C env) := by
  unfold Engine.tickFile
  split
  · rename_i i idx _ _
    split
    · extract_lets r next sent
      have listed : Raises 0 e next := Raises.of_same rfl rfl rfl rfl
      have pushed : Raises 0 e sent := by
        dsimp only [sent]
        split
        · refine listed.trans (m := 0) ?_
          unfold Engine.sendChunk
          dsimp only
          split
          · exact Raises.of_same rfl rfl rfl rfl
          · exact Raises.of_same rfl rfl rfl rfl
        · exact listed
      clear_value sent
      split
      · have done : Raises 0 sent { sent with curFileSendIdx := none } :=
          Raises.of_same rfl rfl rfl rfl
        exact (pushed.trans done).trans (Raises.pushEvent _)
      · exact pushed.mono (Nat.zero_le 1)
    · exact Raises.refl e
  · exact Raises.refl e

theorem Raises.ticks (env : PollEnv) : Raises 1 e (e.ticks C env) := by
  have looped : Raises 0 e e.tickLoop := Raises.of_same rfl rfl rfl rfl
  have rated : Raises 0 e.tickLoop (e.tickLoop.tickAbr env.now) := by
    unfold Engine.tickAbr
    split
    · exact Raises.refl _
    · split
      · exact Raises.of_same rfl rfl rfl rfl
      · exact Raises.refl _
  have kept := (looped.trans rated).trans (Raises.tickSession env)
  have media := kept.trans (Raises.tickMedia C env)
  exact (media.trans (Raises.tickFile C env)).mono (by decide)

theorem Engine.takeResult_rxRing (env : HandlerEnv) :
    (e.takeResult C env).rxRing = e.rxRing := by
  have taken := Raises.takeResult (e := e) C env
  rw [Engine.rxRing, Engine.rxRing, taken.rxRings, taken.socketCount]

/-- A ring that was found has a packet. -/
theorem Engine.rxRing_cons
    {i : Nat} (found : e.rxRing = some i) :
    ∃ p rest, e.rxRings i = p :: rest := by
  have waiting := List.find?_some found
  cases ring : e.rxRings i with
  | nil =>
      rw [ring] at waiting
      cases waiting
  | cons p rest =>
      exact ⟨p, rest, rfl⟩

/-- A poll that finds no event raises a few. -/
theorem Engine.poll_raises
    (empty : e.events = []) (env : PollEnv) :
    ∃ new : List Event, new.length ≤ 4 ∧
      (transportEnginePoll C env e).2.2.events = new ∧
      (transportEnginePoll C env e).2.2.raised = e.raised ++ new ∧
      (transportEnginePoll C env e).2.1 = none := by
  have taken := Raises.takeResult (e := e) C env.result
  have room : e.events.length + 4 < ringSize := by
    rw [empty]
    decide
  unfold transportEnginePoll
  rw [empty]
  dsimp only
  generalize e.takeResult C env.result = f at taken
  split
  · split
    · obtain ⟨new, few, events, raised⟩ :=
        (taken.mono (show 2 ≤ 4 by decide)).events room
      rw [empty] at events
      exact ⟨new, few, events, raised, rfl⟩
    · rename_i i _ _ p rest _
      obtain ⟨new, few, events, raised⟩ := taken.events (by omega)
      have popped :
          Raises 2 { f with rxRings := Function.update f.rxRings i rest }
            (Engine.inbound C
              { f with rxRings := Function.update f.rxRings i rest } env p) :=
        Raises.inbound C env p
      have left : f.events.length + 2 < ringSize := by
        rw [events, List.length_append, empty]
        simp only [List.length_nil, ringSize]
        omega
      obtain ⟨more, fewMore, events', raised'⟩ := popped.events left
      refine ⟨new ++ more, ?_, ?_, ?_, rfl⟩
      · rw [List.length_append]
        omega
      · rw [events']
        dsimp only
        rw [events, empty]
        rfl
      · rw [raised']
        dsimp only
        rw [raised, List.append_assoc]
  · have ticked := (taken.trans (Raises.ticks C env)).mono
      (show 2 + 1 ≤ 4 by decide)
    obtain ⟨new, few, events, raised⟩ := ticked.events room
    rw [empty] at events
    exact ⟨new, few, events, raised, rfl⟩

/-! ## The other calls -/

/-- A call that has nothing to do with events. -/
structure SameEvents (e e' : Engine) : Prop where
  events : e'.events = e.events
  raised : e'.raised = e.raised

theorem SameEvents.trans
    (first : SameEvents e f) (second : SameEvents f g) : SameEvents e g :=
  ⟨second.events.trans first.events, second.raised.trans first.raised⟩

theorem sameEvents_commit
    (origin : Origin) (i : Nat) (s : Session) (seq : UInt32)
    (out : Option PacketBuf) :
    SameEvents e (e.commit origin i s seq out) := by
  cases out with
  | none => exact ⟨rfl, rfl⟩
  | some p => exact ⟨rfl, rfl⟩

theorem sameEvents_setSession (i : Nat) (s : Session) :
    SameEvents e (e.setSession i s) :=
  ⟨rfl, rfl⟩

theorem sameEvents_sessionAlloc
    {addr : Bytes} {i : Nat}
    (allocated : e.sessionAlloc addr = some (i, f)) : SameEvents e f := by
  obtain ⟨-, -, rfl⟩ := Engine.sessionAlloc_eq allocated
  exact ⟨rfl, rfl⟩

theorem sameEvents_connect (env : ConnectEnv) (port : UInt16) :
    SameEvents e (transportEngineConnect C env port e).2 := by
  unfold transportEngineConnect
  split
  · exact ⟨rfl, rfl⟩
  · dsimp only
    split
    · exact ⟨rfl, rfl⟩
    · split
      · exact ⟨rfl, rfl⟩
      · rename_i i next allocated
        have same := sameEvents_sessionAlloc allocated
        split
        · exact ⟨same.events, same.raised⟩
        · dsimp only
          refine SameEvents.trans ?_ (sameEvents_commit _ _ _ _ _)
          exact ⟨same.events, same.raised⟩

theorem sameEvents_sendConnectRequest
    (address : Option Bytes) (port : UInt16) (username displayName : Bytes)
    (buf : Option PacketBuf) :
    SameEvents e
      (transportEngineSendConnectRequest address port username displayName
        buf e).2 := by
  unfold transportEngineSendConnectRequest
  split
  · exact ⟨rfl, rfl⟩
  · dsimp only
    split
    · exact ⟨rfl, rfl⟩
    · rename_i i next allocated
      have same := sameEvents_sessionAlloc allocated
      refine SameEvents.trans ?_ (sameEvents_commit _ _ _ _ _)
      exact ⟨same.events, same.raised⟩

theorem sameEvents_acceptConnection
    (address : Option Bytes) (port : UInt16) (buf : Option PacketBuf) :
    SameEvents e (transportEngineAcceptConnection address port buf e).2 := by
  unfold transportEngineAcceptConnection
  split
  · exact ⟨rfl, rfl⟩
  · dsimp only
    split
    · exact ⟨rfl, rfl⟩
    · rename_i i next allocated
      have same := sameEvents_sessionAlloc allocated
      refine SameEvents.trans ?_ (sameEvents_commit _ _ _ _ _)
      cases next.session with
      | none => exact ⟨same.events, same.raised⟩
      | some j => exact ⟨same.events, same.raised⟩

theorem sameEvents_declineConnection
    (address : Option Bytes) (port : UInt16) (buf : Option PacketBuf) :
    SameEvents e
      (transportEngineDeclineConnection address port buf e).2 := by
  unfold transportEngineDeclineConnection
  split
  · exact ⟨rfl, rfl⟩
  · dsimp only
    split
    · exact ⟨rfl, rfl⟩
    · rename_i i next allocated
      have same := sameEvents_sessionAlloc allocated
      refine SameEvents.trans ?_ (sameEvents_setSession _ _)
      exact same.trans (sameEvents_commit _ _ _ _ _)

theorem sameEvents_sendChat
    (text : Bytes) (buf parityBuf : Option PacketBuf) :
    SameEvents e (transportEngineSendChat C text buf parityBuf e).2 := by
  have pushed (f : Engine) (i : Nat) (s : Session) (seq : UInt32)
      (path : Nat) (chat : PacketBuf) :
      SameEvents f (f.pushChat i s seq path chat text parityBuf) := by
    have target : SameEvents f (f.pathAddr path).1 := by
      unfold Engine.pathAddr
      split
      · exact ⟨rfl, rfl⟩
      · exact ⟨rfl, rfl⟩
    unfold Engine.pushChat
    dsimp only
    split
    · exact ⟨target.events, target.raised⟩
    · exact ⟨target.events, target.raised⟩
  unfold transportEngineSendChat
  split
  · dsimp only
    cases buf with
    | none =>
        exact ⟨rfl, rfl⟩
    | some buf =>
        dsimp only
        split
        · exact ⟨rfl, rfl⟩
        · refine SameEvents.trans ?_ (pushed _ _ _ _ _ _)
          exact ⟨rfl, rfl⟩
  · exact ⟨rfl, rfl⟩

theorem sameEvents_sendFile (file : Option DiskFile) (buf : Option PacketBuf) :
    SameEvents e (transportEngineSendFile file buf e).2 := by
  unfold transportEngineSendFile
  split
  · dsimp only
    split
    · exact ⟨rfl, rfl⟩
    · exact ⟨rfl, rfl⟩
  · exact ⟨rfl, rfl⟩

theorem sameEvents_sendMessage (buf : Option PacketBuf) (payload : Bytes) :
    SameEvents e (e.sendMessage buf payload) := by
  unfold Engine.sendMessage
  split
  · exact sameEvents_commit _ _ _ _ _
  · exact ⟨rfl, rfl⟩

theorem sameEvents_cryptoWork : SameEvents e (e.cryptoWork C) := by
  unfold Engine.cryptoWork
  split
  · exact ⟨rfl, rfl⟩
  · dsimp only
    split
    · exact ⟨rfl, rfl⟩
    · split
      · exact ⟨rfl, rfl⟩
      · split
        · exact ⟨rfl, rfl⟩
        · exact ⟨rfl, rfl⟩

theorem sameEvents_step
    {act : EngineAct} (other : ∀ env, act ≠ .poll env) :
    SameEvents e (e.step C act) := by
  cases act with
  | connect env port => exact sameEvents_connect C env port
  | disconnect =>
      rw [Engine.step, transportEngineDisconnect]
      split
      · exact ⟨rfl, rfl⟩
      · exact ⟨rfl, rfl⟩
  | startListener =>
      rw [Engine.step, transportEngineStartListener]
      split
      · exact ⟨rfl, rfl⟩
      · exact ⟨rfl, rfl⟩
  | sendConnectRequest address port username displayName buf =>
      exact sameEvents_sendConnectRequest address port username displayName
        buf
  | acceptConnection address port buf =>
      exact sameEvents_acceptConnection address port buf
  | declineConnection address port buf =>
      exact sameEvents_declineConnection address port buf
  | sendChat text buf parityBuf =>
      exact sameEvents_sendChat C text buf parityBuf
  | sendFile file buf => exact sameEvents_sendFile file buf
  | sendTyping buf => exact sameEvents_sendMessage buf _
  | sendDeliveryAck msgSeq buf => exact sameEvents_sendMessage buf _
  | audioCallStart =>
      rw [Engine.step, transportEngineAudioCallStart]
      split
      · exact ⟨rfl, rfl⟩
      · exact ⟨rfl, rfl⟩
  | audioCallEnd => exact ⟨rfl, rfl⟩
  | videoCallStart =>
      rw [Engine.step, transportEngineVideoCallStart]
      split
      · exact ⟨rfl, rfl⟩
      · exact ⟨rfl, rfl⟩
  | videoCallEnd => exact ⟨rfl, rfl⟩
  | portHop newPort buf =>
      rw [Engine.step, transportPortHop]
      split
      · exact sameEvents_commit _ _ _ _ _
      · exact ⟨rfl, rfl⟩
  | setFecEnabled enabled =>
      rw [Engine.step, transportSetFecEnabled]
      split
      · exact ⟨rfl, rfl⟩
      · exact ⟨rfl, rfl⟩
  | poll env => exact absurd rfl (other env)
  | shutdown =>
      rw [Engine.step, transportEngineShutdown]
      split
      · exact ⟨rfl, rfl⟩
      · exact ⟨rfl, rfl⟩
  | receive path p => exact ⟨rfl, rfl⟩
  | transmit path =>
      rw [Engine.step, Engine.transmit]
      split
      · exact ⟨rfl, rfl⟩
      · exact ⟨rfl, rfl⟩
  | cryptoWork => exact sameEvents_cryptoWork C

/-! ## Runs -/

/-- What one call does to the events: those it writes for the caller and
those that stay queued are the ones that were queued and the new ones. -/
theorem Engine.step_events
    (few : e.events.length ≤ 4) (act : EngineAct) :
    (e.step C act).events.length ≤ 4 ∧
      ∃ new, e.tells C act ++ (e.step C act).events = e.events ++ new ∧
        (e.step C act).raised = e.raised ++ new := by
  by_cases polls : ∃ env, act = .poll env
  · obtain ⟨env, rfl⟩ := polls
    change (transportEnginePoll C env e).2.2.events.length ≤ 4 ∧
      ∃ new,
        (transportEnginePoll C env e).2.1.toList ++
            (transportEnginePoll C env e).2.2.events = e.events ++ new ∧
          (transportEnginePoll C env e).2.2.raised = e.raised ++ new
    cases queued : e.events with
    | nil =>
        obtain ⟨new, small, events, raised, silent⟩ :=
          Engine.poll_raises C queued env
        rw [events, raised, silent]
        exact ⟨small, new, rfl, rfl⟩
    | cons event rest =>
        have popped :
            transportEnginePoll C env e =
              (1, some event, { e with events := rest }) := by
          simp only [transportEnginePoll, queued]
        rw [popped]
        rw [queued, List.length_cons] at few
        refine ⟨?_, [], ?_, ?_⟩
        · change rest.length ≤ 4
          omega
        · rw [List.append_nil]
          rfl
        · rw [List.append_nil]
  · have other : ∀ env, act ≠ .poll env :=
      fun env same => polls ⟨env, same⟩
    have same := sameEvents_step C (e := e) other
    have silent : e.tells C act = [] := by
      cases act with
      | poll env => exact absurd rfl (other env)
      | _ => rfl
    rw [same.events, same.raised, silent]
    exact ⟨few, [], by simp, by simp⟩

theorem Engine.run_events
    (few : e.events.length ≤ 4) (acts : List EngineAct) :
    (e.run C acts).events.length ≤ 4 ∧
      ∃ new,
        (e.listen C acts).1 ++ (e.run C acts).events = e.events ++ new ∧
          (e.run C acts).raised = e.raised ++ new := by
  induction acts generalizing e with
  | nil =>
      exact ⟨few, [], by simp [Engine.listen, Engine.run], by
        simp [Engine.run]⟩
  | cons act rest inductionHypothesis =>
      obtain ⟨small, new, told, raised⟩ := Engine.step_events C few act
      obtain ⟨small', more, told', raised'⟩ := inductionHypothesis small
      refine ⟨small', new ++ more, ?_, ?_⟩
      · change (e.tells C act ++ ((e.step C act).listen C rest).1) ++
          ((e.step C act).run C rest).events = _
        rw [List.append_assoc, told', ← List.append_assoc, told,
          List.append_assoc]
      · change ((e.step C act).run C rest).raised = _
        rw [raised', raised, List.append_assoc]

/-! ## What the caller sees -/

/-- The events of a run reach the caller exactly: those it was given and those
still queued are the ones whose push succeeded, in order; an event that does
not fit changes nothing in the ring, neither on the way of `ring_push` nor on
that of the chat branch; and a poll that returns 1 has written an event. -/
structure EventsExact (e : Engine) (acts : List EngineAct) : Prop where
  delivered :
    (e.listen C acts).1 ++ (e.run C acts).events = (e.run C acts).raised
  kept :
    ∀ first rest, acts = first ++ rest → ∀ event,
      ringFull (e.run C first).events = true →
        ((e.run C first).pushEvent event).events = (e.run C first).events ∧
          ((e.run C first).overwriteEvent event).events =
            (e.run C first).events
  written :
    ∀ first env rest, acts = first ++ .poll env :: rest →
      (transportEnginePoll C env (e.run C first)).1 = 1 →
        (transportEnginePoll C env (e.run C first)).2.1.isSome = true

/-- No poll of the run finds the event ring empty and a packet waiting. -/
def PollsForEvents (e : Engine) (acts : List EngineAct) : Prop :=
  ∀ first env rest, acts = first ++ .poll env :: rest →
    (e.run C first).events ≠ [] ∨ (e.run C first).rxRing = none

/-- A poll says that it has written an event, and has, unless it takes a
packet instead. -/
theorem Engine.poll_written_iff (env : PollEnv) :
    ((transportEnginePoll C env e).1 = 1 →
        (transportEnginePoll C env e).2.1.isSome = true) ↔
      e.events ≠ [] ∨ e.rxRing = none := by
  cases queued : e.events with
  | cons event rest =>
      simp [transportEnginePoll, queued]
  | nil =>
      have same := Engine.takeResult_rxRing (e := e) C env.result
      have silent := (Engine.poll_raises C queued env).choose_spec.2.2.2
      rw [silent]
      cases waiting : e.rxRing with
      | none =>
          rw [waiting] at same
          simp [transportEnginePoll, queued, same]
      | some i =>
          rw [waiting] at same
          obtain ⟨p, rest, ring⟩ := Engine.rxRing_cons same
          simp [transportEnginePoll, queued, same, ring]

/-- Events reach the caller of an engine exactly in the runs where every poll
has an event to give or no packet to take. -/
theorem events_exact_iff
    (config : EngineConfig) (audio video : Bool) (acts : List EngineAct) :
    EventsExact C (transportEngineInit config audio video) acts ↔
      PollsForEvents C (transportEngineInit config audio video) acts := by
  have start : (transportEngineInit config audio video).events.length ≤ 4 :=
    Nat.zero_le 4
  constructor
  · intro exact' first env rest split
    exact (Engine.poll_written_iff C env).mp
      (exact'.written first env rest split)
  · intro polls
    refine ⟨?_, ?_, ?_⟩
    · obtain ⟨-, new, told, raised⟩ := Engine.run_events C start acts
      exact told.trans raised.symm
    · -- The ring never fills, so there is nothing to overwrite.
      intro first rest _ event full
      have few := (Engine.run_events C start first).1
      have free :=
        ringFull_of_room
          (show ((transportEngineInit config audio video).run C
            first).events.length + 1 < ringSize by
              simp only [ringSize]
              omega)
      rw [free] at full
      cases full
    · intro first env rest split
      exact (Engine.poll_written_iff C env).mpr (polls first env rest split)

end

/-- A packet that no session wants makes a poll return 1 with nothing
written. -/
theorem knock_polled_as_event :
    let e :=
      (transportEngineInit sampleConfig false false).run sampleSuite
        [.receive 0 knock]
    (transportEnginePoll sampleSuite samplePoll e).1 = 1 ∧
      (transportEnginePoll sampleSuite samplePoll e).2.1.isSome = false := by
  decide +kernel

end PqComm
