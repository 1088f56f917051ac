import PqComm.Engine.Handlers
import PqComm.Handshake.Steps

/-!
# What a control packet does to a locked session

The handlers of a locked session consume a fixed set of control messages.
Every other control packet falls through to the handshake, which expects no
message of a locked session and resets it.  So a session keeps its lock
exactly when the packet is one of `Consumed`.
-/

namespace PqComm

open Lib

section

variable (C : CryptoSuite)

/-- The packet completes a rekey on the side that handles it. -/
def CompletesRekey (env : HandlerEnv) (s : Session) (p : PacketBuf) : Prop :=
  (p.opcode = ctrlRekeyInit ∧ p.word = s.keys.keyEpoch ∧
      (C.kemEncaps p.rekeyPublicKey env.rekey.coins).isSome ∧
      env.rekey.buf.isSome) ∨
    (p.opcode = ctrlRekeyConfirm ∧ p.word = s.keys.keyEpoch + 1 ∧
      (C.kemDecaps s.hs.kemSecretKey p.rekeyCiphertext).isSome)

/-- The control packets that the handlers of a locked session consume. -/
def Consumed (env : HandlerEnv) (s : Session) (p : PacketBuf) : Prop :=
  (p.opcode = ctrlHeartbeat ∧ 41 ≤ p.len ∧ env.heartbeatBuf.isSome) ∨
    p.opcode = ctrlHeartbeatAck ∨
    ((p.opcode = ctrlReconnect ∨ p.opcode = ctrlReconnectAck) ∧
      p.word = s.sessionId) ∨
    (p.opcode = ctrlPortHop ∧ 35 ≤ p.len) ∨
    (p.opcode = ctrlPortHopAck ∧ 33 ≤ p.len) ∨
    CompletesRekey C env s p ∨
    p.opcode = ctrlTyping ∨
    ((p.opcode = ctrlDeliveryAck ∨ p.opcode = ctrlReadAck) ∧ 29 ≤ p.len)

/-! ## One handler after the other -/

variable {C : CryptoSuite} {env : HandlerEnv} {s : Session} {p : PacketBuf}

theorem heartbeatHandle_pos_iff
    (buf : Option PacketBuf) (seq : UInt32) (now : UInt64)
    (long : 25 ≤ p.len) :
    (heartbeatHandle p s buf seq now).ret > 0 ↔
      (p.opcode = ctrlHeartbeat ∧ 41 ≤ p.len ∧ buf.isSome) ∨
        p.opcode = ctrlHeartbeatAck := by
  unfold heartbeatHandle
  rw [if_neg (by omega)]
  by_cases request : p.opcode = ctrlHeartbeat
  · have notAck : ctrlHeartbeat ≠ ctrlHeartbeatAck := by
      decide
    by_cases short : p.len < 41
    · simp [request, short, notAck]
    · cases buf with
      | none => simp [request, short, notAck]
      | some buf => simp [request, short, notAck, Nat.not_lt.mp short]
  · by_cases ack : p.opcode = ctrlHeartbeatAck
    · simp [ack, (by decide : ctrlHeartbeatAck ≠ ctrlHeartbeat)]
    · simp [request, ack]

theorem reconnectHandle_pos_iff
    (buf : Option PacketBuf) (seq : UInt32) (now : UInt64)
    (long : 25 ≤ p.len) (locked : s.state = .locked) :
    (reconnectHandle p s buf seq now).ret > 0 ↔
      (p.opcode = ctrlReconnect ∨ p.opcode = ctrlReconnectAck) ∧
        p.word = s.sessionId := by
  unfold reconnectHandle
  rw [if_neg (by omega)]
  by_cases request : p.opcode = ctrlReconnect
  · by_cases known : p.word = s.sessionId
    · simp [request, known, locked]
    · simp [request, known]
  · by_cases ack : p.opcode = ctrlReconnectAck
    · by_cases known : p.word = s.sessionId
      · simp [ack, known, locked,
          (by decide : ctrlReconnectAck ≠ ctrlReconnect)]
      · simp [ack, known, (by decide : ctrlReconnectAck ≠ ctrlReconnect)]
    · simp [request, ack]

theorem portHopHandle_pos_iff (long : 25 ≤ p.len) :
    (portHopHandle p s).1 > 0 ↔
      (p.opcode = ctrlPortHop ∧ 35 ≤ p.len) ∨
        (p.opcode = ctrlPortHopAck ∧ 33 ≤ p.len) := by
  unfold portHopHandle
  rw [if_neg (by omega)]
  by_cases request : p.opcode = ctrlPortHop
  · have notAck : ctrlPortHop ≠ ctrlPortHopAck := by
      decide
    by_cases short : p.len < 35
    · simp [request, short, notAck]
    · simp [request, short, notAck, Nat.not_lt.mp short]
  · by_cases ack : p.opcode = ctrlPortHopAck
    · by_cases short : p.len < 33
      · simp [ack, short, (by decide : ctrlPortHopAck ≠ ctrlPortHop)]
      · simp [ack, short, (by decide : ctrlPortHopAck ≠ ctrlPortHop),
          Nat.not_lt.mp short]
    · simp [request, ack]

theorem portHopStep_ret (seq : UInt32) :
    (portHopStep env p s seq).ret = (portHopHandle p s).1 := by
  unfold portHopStep
  dsimp only
  split <;> rfl

theorem untouched_portHopStep (seq : UInt32) :
    Untouched s (portHopStep env p s seq).sess := by
  have hop := untouched_portHopHandle p s
  unfold portHopStep
  dsimp only
  split
  · exact hop.trans (untouched_portHopSendAck _ _ _ _)
  · exact hop

theorem rekeyHandle_pos_iff (seq : UInt32) (locked : s.state = .locked) :
    (rekeyHandle C env.rekey p s seq).ret > 0 ↔ CompletesRekey C env s p := by
  constructor
  · intro positive
    have done := rekeyHandle_cases C env.rekey p s seq
    generalize rekeyHandle C env.rekey p s seq = result at done positive
    cases done with
    | ignored ret idle =>
        exact absurd positive (by simpa using idle)
    | switched _ opcode epoch ciphertext secret made ret out answer =>
        rcases answer with ⟨buf, pool, -⟩ | ⟨-, rfl, -⟩
        · exact Or.inl ⟨opcode, epoch, by rw [made]; rfl, by rw [pool]; rfl⟩
        · exact absurd positive (by simp)
    | confirmed _ opcode epoch secret opened =>
        exact Or.inr ⟨opcode, epoch, by rw [opened]; rfl⟩
  · rintro (⟨opcode, epoch, made, pool⟩ | ⟨opcode, epoch, opened⟩)
    · obtain ⟨⟨ciphertext, secret⟩, made⟩ := Option.isSome_iff_exists.mp made
      obtain ⟨buf, pool⟩ := Option.isSome_iff_exists.mp pool
      rw [rekeyHandle_init_eq C seq locked opcode epoch made pool]
      exact Int.one_pos
    · obtain ⟨secret, opened⟩ := Option.isSome_iff_exists.mp opened
      rw [rekeyHandle_confirm_eq C seq locked opcode epoch opened]
      exact Int.sign_eq_one_iff_pos.mp rfl

theorem rekeyHandle_keeps (renv : RekeyEnv) (seq : UInt32) :
    (rekeyHandle C renv p s seq).sess.state = s.state ∧
      (rekeyHandle C renv p s seq).sess.sessionId = s.sessionId := by
  have done := rekeyHandle_cases C renv p s seq
  generalize rekeyHandle C renv p s seq = result at done
  cases done with
  | ignored => exact ⟨rfl, rfl⟩
  | switched => exact ⟨rfl, rfl⟩
  | confirmed => exact ⟨rfl, rfl⟩

theorem lockedInline_consumed_iff (seq : UInt32) :
    (lockedInline env p s seq).consumed = true ↔
      p.opcode = ctrlTyping ∨
        ((p.opcode = ctrlDeliveryAck ∨ p.opcode = ctrlReadAck) ∧
          29 ≤ p.len) := by
  unfold lockedInline
  by_cases typing : p.opcode = ctrlTyping
  · simp [typing]
  by_cases long : 29 ≤ p.len
  · by_cases delivery : p.opcode = ctrlDeliveryAck
    · simp [delivery, long, (by decide : ctrlDeliveryAck ≠ ctrlTyping)]
    · by_cases read : p.opcode = ctrlReadAck
      · simp [read, long, (by decide : ctrlReadAck ≠ ctrlTyping),
          (by decide : ctrlReadAck ≠ ctrlDeliveryAck)]
      · simp [typing, delivery, read]
  · simp [typing, long]

theorem lockedInline_sess (seq : UInt32) :
    (lockedInline env p s seq).sess = s := by
  unfold lockedInline
  split
  · rfl
  · split
    · rfl
    · split <;> rfl

/-! ## All of them -/

theorem CtlOut.orElse_consumed
    (r : CtlOut) (rest : Session → UInt32 → LockedOut) :
    (r.orElse rest).consumed = true ↔
      r.ret > 0 ∨ (rest r.sess r.seq).consumed = true := by
  unfold CtlOut.orElse
  split
  · rename_i positive
    simp [positive]
  · rename_i idle
    simp [idle]

theorem CtlOut.orElse_cases
    {P : LockedOut → Prop} (r : CtlOut) (rest : Session → UInt32 → LockedOut)
    (first :
      r.ret > 0 →
        P { consumed := true, sess := r.sess, seq := r.seq, out := r.out })
    (second : ¬ r.ret > 0 → P (rest r.sess r.seq)) : P (r.orElse rest) := by
  unfold CtlOut.orElse
  split
  · rename_i positive
    exact first positive
  · rename_i idle
    exact second idle

theorem completesRekey_congr
    {t : Session} (same : Untouched s t) :
    CompletesRekey C env t p ↔ CompletesRekey C env s p := by
  simp only [CompletesRekey, same.keys, same.hs]

theorem lockedControl_consumed_iff
    (seq : UInt32) (locked : s.state = .locked) (long : 25 ≤ p.len) :
    (lockedControl C env p s seq).consumed = true ↔ Consumed C env s p := by
  have heartbeat :=
    untouched_heartbeatHandle p s env.heartbeatBuf seq env.now
  simp only [lockedControl, CtlOut.orElse_consumed]
  rw [heartbeatHandle_pos_iff _ _ _ long]
  generalize heartbeatHandle p s env.heartbeatBuf seq env.now = first
    at heartbeat ⊢
  have reconnect :=
    heartbeat.trans
      (untouched_reconnectHandle p first.sess env.reconnectBuf first.seq
        env.now)
  rw [reconnectHandle_pos_iff _ _ _ long (heartbeat.state.trans locked),
    heartbeat.sessionId]
  generalize
    reconnectHandle p first.sess env.reconnectBuf first.seq env.now = second
    at reconnect ⊢
  have hop :=
    reconnect.trans
      (@untouched_portHopStep env second.sess p second.seq)
  rw [portHopStep_ret, portHopHandle_pos_iff long]
  generalize portHopStep env p second.sess second.seq = third at hop ⊢
  rw [rekeyHandle_pos_iff _ (hop.state.trans locked),
    completesRekey_congr hop, lockedInline_consumed_iff]
  simp only [Consumed, or_assoc]

/-- What the handlers of a locked session leave of it: the lock and the
identifier, and the keys too when the packet is consumed without completing a
rekey. -/
structure LockKept (C : CryptoSuite) (env : HandlerEnv) (p : PacketBuf)
    (s : Session) (r : LockedOut) : Prop where
  state : r.sess.state = s.state
  sessionId : r.sess.sessionId = s.sessionId
  keys :
    r.consumed = true → ¬ CompletesRekey C env s p →
      r.sess.keys = s.keys

theorem lockKept_of_untouched {r : LockedOut} (same : Untouched s r.sess) :
    LockKept C env p s r :=
  ⟨same.state, same.sessionId, fun _ _ => same.keys⟩

/-- The last two handlers, on a session the others have not touched. -/
theorem lockKept_rekey
    {t : Session} (same : Untouched s t) (seq : UInt32)
    (locked : s.state = .locked) :
    LockKept C env p s
      ((rekeyHandle C env.rekey p t seq).orElse fun s seq =>
        lockedInline env p s seq) := by
  obtain ⟨state, sessionId⟩ :=
    rekeyHandle_keeps (C := C) (s := t) (p := p) env.rekey seq
  refine CtlOut.orElse_cases _ _ ?_ ?_
  · intro positive
    have completes :=
      (rekeyHandle_pos_iff seq (same.state.trans locked)).mp positive
    exact ⟨state.trans same.state, sessionId.trans same.sessionId,
      fun _ other =>
        absurd ((completesRekey_congr same).mp completes) other⟩
  · intro _
    refine ⟨?_, ?_, fun consumed _ => ?_⟩
    · rw [lockedInline_sess, state, same.state]
    · rw [lockedInline_sess, sessionId, same.sessionId]
    · -- An inline opcode is none that `rekey_handle` looks at.
      rw [lockedInline_sess]
      have inline := (lockedInline_consumed_iff _).mp consumed
      have done := rekeyHandle_cases C env.rekey p t seq
      generalize rekeyHandle C env.rekey p t seq = result at done
      cases done with
      | ignored => exact same.keys
      | switched _ opcode =>
          rw [opcode] at inline
          rcases inline with typing | ⟨delivery | read, _⟩
          · exact absurd typing (by decide)
          · exact absurd delivery (by decide)
          · exact absurd read (by decide)
      | confirmed _ opcode =>
          rw [opcode] at inline
          rcases inline with typing | ⟨delivery | read, _⟩
          · exact absurd typing (by decide)
          · exact absurd delivery (by decide)
          · exact absurd read (by decide)

theorem lockKept_lockedControl (seq : UInt32) (locked : s.state = .locked) :
    LockKept C env p s (lockedControl C env p s seq) := by
  have heartbeat :=
    untouched_heartbeatHandle p s env.heartbeatBuf seq env.now
  unfold lockedControl
  generalize heartbeatHandle p s env.heartbeatBuf seq env.now = first
    at heartbeat ⊢
  refine CtlOut.orElse_cases _ _
    (fun _ => lockKept_of_untouched heartbeat) fun _ => ?_
  have reconnect :=
    heartbeat.trans
      (untouched_reconnectHandle p first.sess env.reconnectBuf first.seq
        env.now)
  generalize
    reconnectHandle p first.sess env.reconnectBuf first.seq env.now = second
    at reconnect ⊢
  refine CtlOut.orElse_cases _ _
    (fun _ => lockKept_of_untouched reconnect) fun _ => ?_
  have hop :=
    reconnect.trans
      (@untouched_portHopStep env second.sess p second.seq)
  exact CtlOut.orElse_cases _ _ (fun _ => lockKept_of_untouched hop)
    fun _ => lockKept_rekey hop _ locked

end

/-! ## The handlers -/

section

variable (C : CryptoSuite) {env : HandlerEnv} {e : Engine} {p : PacketBuf}

/-- The session in a slot of the pool after a commit. -/
theorem Engine.commit_pool (e : Engine) (origin : Origin) (i : Nat)
    (s : Session) (seq : UInt32) (out : Option PacketBuf) :
    (e.commit origin i s seq out).pool = Function.update e.pool i s := by
  cases out with
  | none => rfl
  | some p => rfl

/-- A locked session that gets to the handshake is reset. -/
theorem handshakeRun_locked
    (reply : HsEnv → Session → UInt8 → UInt32 → HsOut) (hs : HsEnv)
    {s : Session} (seq : UInt32) {v : PacketView}
    (parsed : packetParse p = some v) (locked : s.state = .locked) :
    (handshakeRun C reply hs s p seq).sess.state = .idle := by
  rw [handshakeRun_eq]
  simp only [parsed, feed, processPayload_locked C locked]
  rfl

theorem Engine.handleHandshake_state
    (initiator : Bool) (i : Nat) {v : PacketView}
    (parsed : packetParse p = some v)
    (locked : (e.pool i).state = .locked) :
    ((e.handleHandshake C initiator env i p).pool i).state = .idle := by
  have reset :
      (if initiator then
          handshakeRunAsInitiator C env.hs (e.pool i) p e.seqCounter
        else
          handshakeRunAsResponder C env.hs (e.pool i) p
            e.seqCounter).sess.state = .idle := by
    split
    · exact handshakeRun_locked C _ _ _ parsed locked
    · exact handshakeRun_locked C _ _ _ parsed locked
  unfold Engine.handleHandshake
  dsimp only
  rw [reset]
  simp only [reduceCtorEq, false_and, if_false, Engine.commit_pool,
    Function.update_self, reset]

theorem Engine.afterLocked_pool (e : Engine) (i : Nat) (r : LockedOut) :
    (e.afterLocked i r).pool = Function.update e.pool i r.sess := by
  unfold Engine.afterLocked
  cases r.event with
  | none => exact Engine.commit_pool ..
  | some event => exact Engine.commit_pool ..

theorem Engine.handleControl_locked
    (initiator : Bool) (i : Nat) (locked : (e.pool i).state = .locked) :
    e.handleControl C initiator env i p =
      let r := lockedControl C env p (e.pool i) e.seqCounter
      if r.consumed then
        e.afterLocked i r
      else
        (e.afterLocked i r).handleHandshake C initiator env i p := by
  unfold Engine.handleControl
  rw [if_pos locked]

end

/-- What the handlers promise a locked session: it stays locked under its
identifier, and only a completed rekey changes its keys. -/
structure StaysLocked (C : CryptoSuite) (env : HandlerEnv) (p : PacketBuf)
    (s s' : Session) : Prop where
  state : s'.state = .locked
  sessionId : s'.sessionId = s.sessionId
  keys : ¬ CompletesRekey C env s p → s'.keys = s.keys

theorem Engine.handle_stays_locked_iff
    (C : CryptoSuite) (env : HandlerEnv) (e : Engine) (p : PacketBuf)
    (initiator : Bool) {i : Nat} {v : PacketView}
    (session : e.session = some i) (locked : (e.pool i).state = .locked)
    (parsed : packetParse p = some v) (static : staticCheck v = true)
    (control : v.channelId = chControl) :
    StaysLocked C env p (e.pool i) ((e.handle C initiator env p).pool i) ↔
      Consumed C env (e.pool i) p := by
  have long : 25 ≤ p.len := by
    have size := length_le_of_packetParse parsed
    have nonempty := nonempty_of_staticCheck static
    simp only [headerSize] at size
    omega
  have kept :=
    @lockKept_lockedControl C env _ p e.seqCounter locked
  rw [← lockedControl_consumed_iff e.seqCounter locked long]
  unfold Engine.handle
  simp only [session, parsed, control, ne_eq, not_true_eq_false, if_false,
    Engine.handleControl_locked C initiator i locked]
  cases consumed :
      (lockedControl C env p (e.pool i) e.seqCounter).consumed with
  | true =>
      simp only [if_true, Engine.afterLocked_pool, Function.update_self,
        iff_true]
      exact ⟨kept.state.trans locked, kept.sessionId, kept.keys consumed⟩
  | false =>
      simp only [Bool.false_eq_true, if_false, iff_false]
      intro stays
      have stillLocked :
          ((e.afterLocked i
            (lockedControl C env p (e.pool i) e.seqCounter)).pool
              i).state = .locked := by
        rw [Engine.afterLocked_pool, Function.update_self, kept.state,
          locked]
      have reset :=
        @Engine.handleHandshake_state C env _ p initiator i _ parsed
          stillLocked
      rw [stays.state] at reset
      cases reset

/-- A control packet that passes the gates leaves a locked session locked
exactly when its handlers consume it. -/
theorem handler_stays_locked_iff
    (C : CryptoSuite) (env : HandlerEnv) (e : Engine) (p : PacketBuf)
    {i : Nat} {v : PacketView} (session : e.session = some i)
    (locked : (e.pool i).state = .locked)
    (parsed : packetParse p = some v) (static : staticCheck v = true)
    (control : v.channelId = chControl) :
    (StaysLocked C env p (e.pool i)
        ((engineControlHandler C env e p).pool i) ↔
      Consumed C env (e.pool i) p) ∧
    (StaysLocked C env p (e.pool i)
        ((engineResponderHandler C env e p).pool i) ↔
      Consumed C env (e.pool i) p) :=
  ⟨e.handle_stays_locked_iff C env p true session locked parsed static
      control,
    e.handle_stays_locked_iff C env p false session locked parsed static
      control⟩

/-! ## A file announcement -/

/-- A handler call with a buffer for everybody. -/
def sampleHandlerEnv : HandlerEnv where
  now := 5000
  heartbeatBuf := some default
  reconnectBuf := some default
  hopBuf := some default
  rekey := { coins := [5], buf := some default }
  relayBuf := some default
  ackBuf := some default
  hs := { buf := some default, coins := [5], sessionId := 77 }

/-- An engine that has just initialised, with a locked session. -/
def lockedEngine (initiator : Bool) : Engine :=
  { transportEngineInit
      { localPort := 9001, localPortAlt := 9003, multipathEnabled := false
        pathCount := 1 } false false with
    pool := fun _ =>
      { sessionId := 7, state := .locked, addrLen := sockaddrIn6Size }
    sessionCount := 1
    session := some 0
    seqCounter := 1
    sessionIsLocked := true
    roleInitiator := initiator }

/-- The FILE_META that the peer sends before a file. -/
def sampleFileMeta : PacketBuf :=
  controlPacket default false 7 1
    [ctrlFileMeta, 1, 0x61, 1, 0, 0, 0, 1, 0, 0, 0, 0x61, 0, 0, 0]

/-- It resets a locked session on either side. -/
theorem fileMeta_resets_session :
    (∃ v,
      packetParse sampleFileMeta = some v ∧ staticCheck v = true ∧
        (sessionCheck ((lockedEngine true).pool 0) v).isSome) ∧
      ((engineControlHandler sampleSuite sampleHandlerEnv (lockedEngine true)
        sampleFileMeta).pool 0).state = .idle ∧
      ((engineResponderHandler sampleSuite sampleHandlerEnv
        (lockedEngine false) sampleFileMeta).pool 0).state = .idle := by
  refine ⟨⟨_, packetParse_buildPacket _ _ _ _ _ _ _ (by decide)
    (by decide), by decide +kernel, by decide +kernel⟩, ?_⟩
  decide +kernel

/-- A heartbeat of the peer. -/
def sampleHeartbeat : PacketBuf :=
  controlPacket default true 7 1 (ctrlHeartbeat :: List.replicate 16 0)

theorem handler_stays_locked_heartbeat :
    StaysLocked sampleSuite sampleHandlerEnv sampleHeartbeat
        ((lockedEngine true).pool 0)
        ((engineControlHandler sampleSuite sampleHandlerEnv
          (lockedEngine true) sampleHeartbeat).pool 0) ∧
      StaysLocked sampleSuite sampleHandlerEnv sampleHeartbeat
        ((lockedEngine true).pool 0)
        ((engineResponderHandler sampleSuite sampleHandlerEnv
          (lockedEngine true) sampleHeartbeat).pool 0) := by
  have parsed :=
    packetParse_buildPacket default true 0 7 chControl 1
      (ctrlHeartbeat :: List.replicate 16 0) (by decide) (by decide)
  have both :=
    handler_stays_locked_iff sampleSuite sampleHandlerEnv (lockedEngine true)
      sampleHeartbeat (i := 0) rfl rfl parsed (by decide +kernel) rfl
  have consumed :
      Consumed sampleSuite sampleHandlerEnv ((lockedEngine true).pool 0)
        sampleHeartbeat :=
    Or.inl ⟨by decide +kernel, by decide +kernel, rfl⟩
  exact ⟨both.1.mpr consumed, both.2.mpr consumed⟩

end PqComm
