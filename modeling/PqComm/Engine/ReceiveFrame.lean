import PqComm.Engine.ReceivePaths

/-!
# What the engine leaves of a receiving session

The handlers and the periodic work change a session: heartbeats, reconnects,
the redundancy of FEC.  None of this is what packets meet on their way in, as
long as the messages are harmless and `reconnect_tick` does not give the
session up.
-/

namespace PqComm

open Lib

/-- What the handlers and the periodic work leave alone: what packets meet on
their way in. -/
structure ReceiveFrame (i : Nat) (e e' : Engine) : Prop
    extends HandlerFrame e e' where
  alike : ReceivesAlike (e.pool i) (e'.pool i)

theorem ReceiveFrame.of_pool
    {i : Nat} {e e' : Engine} (frame : HandlerFrame e e')
    (pool : e'.pool = e.pool) : ReceiveFrame i e e' := by
  refine ⟨frame, ?_⟩
  rw [pool]
  exact ReceivesAlike.refl _

theorem ReceiveFrame.trans
    {i : Nat} {e f g : Engine} (first : ReceiveFrame i e f)
    (second : ReceiveFrame i f g) : ReceiveFrame i e g :=
  ⟨first.toHandlerFrame.trans second.toHandlerFrame,
    first.alike.trans second.alike⟩

theorem receiveFrame_commit
    {i : Nat} {e : Engine} {s : Session} (origin : Origin) (seq : UInt32)
    (out : Option PacketBuf) (alike : ReceivesAlike (e.pool i) s) :
    ReceiveFrame i e (e.commit origin i s seq out) := by
  refine ⟨frame_commit e origin i s seq out, ?_⟩
  rw [Engine.commit_pool, Function.update_self]
  exact alike

section

variable {C : CryptoSuite} {env : HandlerEnv} {s : Session} {p : PacketBuf}

/-! ### The handlers -/

theorem receivesAlike_heartbeatHandle
    (buf : Option PacketBuf) (seq : UInt32) (now : UInt64) :
    ReceivesAlike s (heartbeatHandle p s buf seq now).sess := by
  have heard : ReceivesAlike s (s.heardHeartbeat now) :=
    ⟨rfl, rfl, rfl, rfl, rfl, rfl⟩
  unfold heartbeatHandle
  split
  · exact ReceivesAlike.refl s
  · split
    · split
      · exact ReceivesAlike.refl s
      · cases buf with
        | none => exact heard
        | some buf => exact heard
    · split
      · exact heard
      · exact ReceivesAlike.refl s

theorem receivesAlike_reconnectHandle
    (buf : Option PacketBuf) (seq : UInt32) (now : UInt64) :
    ReceivesAlike s (reconnectHandle p s buf seq now).sess := by
  have reached : ReceivesAlike s (s.reached now) :=
    ⟨rfl, rfl, rfl, rfl, rfl, rfl⟩
  unfold reconnectHandle
  split
  · exact ReceivesAlike.refl s
  · split
    · split
      · exact ReceivesAlike.refl s
      · cases buf with
        | none => exact reached
        | some buf => exact reached
    · split
      · split
        · exact ReceivesAlike.refl s
        · exact reached
      · exact ReceivesAlike.refl s

theorem portHopStep_sess
    (seq : UInt32) (noHop : p.opcode ≠ ctrlPortHop) :
    (portHopStep env p s seq).sess = s := by
  have same : (portHopHandle p s).2 = s := by
    unfold portHopHandle
    rw [if_neg noHop]
    split
    · rfl
    · split
      · split
        · rfl
        · rfl
      · rfl
  unfold portHopStep
  dsimp only
  split
  · unfold portHopSendAck
    cases env.hopBuf with
    | none => exact same
    | some buf => exact same
  · exact same

theorem rekeyHandle_sess
    (renv : RekeyEnv) (seq : UInt32) (noInit : p.opcode ≠ ctrlRekeyInit)
    (noConfirm : p.opcode ≠ ctrlRekeyConfirm) :
    (rekeyHandle C renv p s seq).sess = s := by
  have handled := rekeyHandle_cases C renv p s seq
  generalize rekeyHandle C renv p s seq = result at handled
  cases handled with
  | ignored => rfl
  | switched _ opcode => exact absurd opcode noInit
  | confirmed _ opcode => exact absurd opcode noConfirm

theorem CtlOut.orElse_alike
    (r : CtlOut) {rest : Session → UInt32 → LockedOut}
    (first : ReceivesAlike s r.sess)
    (second : ReceivesAlike s (rest r.sess r.seq).sess) :
    ReceivesAlike s (r.orElse rest).sess :=
  CtlOut.orElse_cases (P := fun out => ReceivesAlike s out.sess) r rest
    (fun _ => first) fun _ => second

/-- Only a hop or a rekey changes what packets meet. -/
theorem Harmless.receivesAlike
    {t : Session} (harmless : Harmless C env t p) (seq : UInt32) :
    ReceivesAlike s (lockedControl C env p s seq).sess := by
  have heartbeat :=
    @receivesAlike_heartbeatHandle s p env.heartbeatBuf seq env.now
  unfold lockedControl
  generalize heartbeatHandle p s env.heartbeatBuf seq env.now = first
    at heartbeat ⊢
  apply CtlOut.orElse_alike first heartbeat
  have reconnect :=
    heartbeat.trans
      (@receivesAlike_reconnectHandle first.sess p env.reconnectBuf first.seq
        env.now)
  generalize
    reconnectHandle p first.sess env.reconnectBuf first.seq env.now = second
    at reconnect ⊢
  apply CtlOut.orElse_alike second reconnect
  have hop :=
    @portHopStep_sess env second.sess p second.seq harmless.noHop
  generalize portHopStep env p second.sess second.seq = third at hop ⊢
  apply CtlOut.orElse_alike third
  · rw [hop]
    exact reconnect
  · have rekey :=
      @rekeyHandle_sess C third.sess p env.rekey third.seq
        harmless.noRekeyInit harmless.noRekeyConfirm
    apply CtlOut.orElse_alike
    · rw [rekey, hop]
      exact reconnect
    · rw [lockedInline_sess, rekey, hop]
      exact reconnect

theorem Harmless.congr
    {t : Session} (harmless : Harmless C env t p)
    (alike : ReceivesAlike t s) : Harmless C env s p := by
  obtain ⟨long, consumed, noHop, noInit, noConfirm⟩ := harmless
  refine ⟨long, ?_, noHop, noInit, noConfirm⟩
  rcases consumed with heartbeat | ack | ⟨opcode, word⟩ | hop | hopAck |
    rekey | inline
  · exact Or.inl heartbeat
  · exact Or.inr (Or.inl ack)
  · exact Or.inr (Or.inr (Or.inl ⟨opcode, word.trans alike.sessionId.symm⟩))
  · exact absurd hop.1 noHop
  · exact Or.inr (Or.inr (Or.inr (Or.inr (Or.inl hopAck))))
  · rcases rekey with init | confirm
    · exact absurd init.1 noInit
    · exact absurd confirm.1 noConfirm
  · exact Or.inr (Or.inr (Or.inr (Or.inr (Or.inr (Or.inr inline)))))

theorem Engine.sendMessage_pool
    (e : Engine) (buf : Option PacketBuf) (payload : Bytes) :
    (e.sendMessage buf payload).pool = e.pool := by
  unfold Engine.sendMessage
  split
  · rw [Engine.commit_pool, Function.update_eq_self]
  · rfl

theorem Engine.handleData_pool
    (e : Engine) (initiator : Bool) (v : PacketView) (s : Session) :
    (e.handleData C initiator env v s).pool = e.pool := by
  unfold Engine.handleData
  split
  · rfl
  · split
    · unfold Engine.relayRoute
      dsimp only
      split
      · rfl
      · rfl
    · split
      · unfold transportEngineSendDeliveryAck
        rw [Engine.sendMessage_pool]
        split
        · rfl
        · rfl
      · rfl

/-- A handler that gets a data packet or a harmless message leaves the session
as packets meet it. -/
theorem receiveFrame_handle
    {e : Engine} {i : Nat} {t : Session} (initiator : Bool)
    (session : e.session = some i) (locked : (e.pool i).state = .locked)
    (alike : ReceivesAlike t (e.pool i))
    (harmless : p.data 14 = chControl → Harmless C env t p) :
    ReceiveFrame i e (e.handle C initiator env p) := by
  refine ⟨frame_handle C e initiator env p, ?_⟩
  unfold Engine.handle
  rw [session]
  cases parsed : packetParse p with
  | none =>
      exact ReceivesAlike.refl _
  | some v =>
      dsimp only
      by_cases control : v.channelId ≠ chControl
      · rw [if_pos control, Engine.handleData_pool]
        exact ReceivesAlike.refl _
      · rw [if_neg control]
        have channel : p.data 14 = chControl := by
          rw [← (parsedAs_of_packetParse parsed).channelId]
          exact not_not.mp control
        have harmless := (harmless channel).congr alike
        have consumed :=
          (lockedControl_consumed_iff e.seqCounter locked
            harmless.long).mpr harmless.consumed
        rw [Engine.handleControl_locked C initiator i locked]
        dsimp only
        rw [if_pos consumed, Engine.afterLocked_pool, Function.update_self]
        exact harmless.receivesAlike e.seqCounter

/-! ### The periodic work -/

theorem receivesAlike_heartbeatTick
    (s : Session) (buf : Option PacketBuf) (seq : UInt32) (now : UInt64) :
    ReceivesAlike s (heartbeatTick s buf seq now).sess ∧
      (s.TriesLeft → (heartbeatTick s buf seq now).sess.TriesLeft) := by
  unfold heartbeatTick
  split
  · exact ⟨ReceivesAlike.refl s, id⟩
  · split
    · unfold heartbeatSend
      split
      · exact ⟨ReceivesAlike.refl s, id⟩
      · cases buf with
        | none => exact ⟨ReceivesAlike.refl s, id⟩
        | some buf => exact ⟨⟨rfl, rfl, rfl, rfl, rfl, rfl⟩, id⟩
    · exact ⟨⟨rfl, rfl, rfl, rfl, rfl, rfl⟩, id⟩

theorem receivesAlike_reconnectTick
    {s : Session} (tries : s.TriesLeft) (buf : Option PacketBuf)
    (seq : UInt32) (now : UInt64) :
    ReceivesAlike s (reconnectTick s buf seq now).sess := by
  have asked (s : Session) :
      ReceivesAlike s (reconnectSendRequest s buf seq).sess := by
    cases buf with
    | none => exact ReceivesAlike.refl s
    | some buf => exact ⟨rfl, rfl, rfl, rfl, rfl, rfl⟩
  have left : ¬ s.reconnectAttempts ≥ s.resilience.maxReconnectAttempts :=
    UInt32.not_le.mpr tries
  unfold reconnectTick
  split
  · exact ReceivesAlike.refl s
  · split
    · exact ReceivesAlike.refl s
    · split
      · have stamped :
            ReceivesAlike s { s with reconnectStartMs := now } :=
          ⟨rfl, rfl, rfl, rfl, rfl, rfl⟩
        exact stamped.trans (asked _)
      · split
        · exact asked s
        · exact ReceivesAlike.refl s

theorem receiveFrame_tickAbr
    {e : Engine} {i : Nat} (session : e.session = some i) (now : UInt64) :
    ReceiveFrame i e (e.tickAbr now) ∧
      ((e.pool i).TriesLeft → ((e.tickAbr now).pool i).TriesLeft) := by
  have kept :
      (abrUpdate e.abr (e.pool i).resilience now).2.multipathEnabled =
          (e.pool i).resilience.multipathEnabled ∧
        (abrUpdate e.abr (e.pool i).resilience now).2.maxReconnectAttempts =
          (e.pool i).resilience.maxReconnectAttempts := by
    unfold abrUpdate
    split
    · exact ⟨rfl, rfl⟩
    · split
      · exact ⟨rfl, rfl⟩
      · dsimp only
        split
        · exact ⟨rfl, rfl⟩
        · exact ⟨rfl, rfl⟩
  unfold Engine.tickAbr
  rw [session]
  dsimp only
  split
  · refine ⟨⟨⟨⟨rfl, rfl, rfl⟩, rfl, rfl, rfl⟩, ?_⟩, fun tries => ?_⟩
    · simp only [Engine.setSession, Function.update_self]
      exact ⟨rfl, rfl, rfl, rfl, rfl, kept.1⟩
    · simp only [Engine.setSession, Function.update_self]
      unfold Session.TriesLeft
      rw [kept.2]
      exact tries
  · exact ⟨ReceiveFrame.of_pool (HandlerFrame.refl e) rfl, id⟩

theorem receiveFrame_tickSession
    {e : Engine} {i : Nat} (session : e.session = some i)
    (tries : (e.pool i).TriesLeft) (env : PollEnv) :
    ReceiveFrame i e (e.tickSession env) := by
  unfold Engine.tickSession
  rw [session]
  dsimp only
  split
  · obtain ⟨alike, left⟩ :=
      receivesAlike_heartbeatTick (e.pool i) env.heartbeatBuf e.seqCounter
        env.now
    generalize
      heartbeatTick (e.pool i) env.heartbeatBuf e.seqCounter env.now = beat
      at alike left ⊢
    refine
      (receiveFrame_commit .control beat.seq beat.out alike).trans
        (receiveFrame_commit _ _ _ ?_)
    apply receivesAlike_reconnectTick
    rw [Engine.commit_pool, Function.update_self]
    exact left tries
  · exact ReceiveFrame.of_pool (HandlerFrame.refl e) rfl

theorem receiveFrame_ticks
    {e : Engine} {i : Nat} (session : e.session = some i)
    (tries : (e.pool i).TriesLeft) (env : PollEnv) :
    ReceiveFrame i e (e.ticks C env) := by
  have quiet {f g : Engine} (frame : QuietFrame f g) : ReceiveFrame i f g :=
    ReceiveFrame.of_pool frame.toHandlerFrame frame.pool
  have looped : ReceiveFrame i e e.tickLoop :=
    quiet ⟨⟨⟨rfl, rfl, rfl⟩, rfl, rfl, rfl⟩, rfl⟩
  obtain ⟨abr, left⟩ :=
    receiveFrame_tickAbr (e := e.tickLoop) session env.now
  have ticked :=
    receiveFrame_tickSession (abr.session.trans session) (left tries) env
  unfold Engine.ticks
  refine ReceiveFrame.trans ?_ (quiet (quiet_tickFile C _ env))
  refine ReceiveFrame.trans ?_ (quiet (quiet_tickVideo C _ env))
  refine ReceiveFrame.trans ?_ (quiet (quiet_tickAudio C _ env))
  refine ReceiveFrame.trans ?_ (quiet (quiet_tickDecoy _ env))
  exact (looped.trans abr).trans ticked

end

end PqComm
