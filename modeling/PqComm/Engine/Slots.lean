import PqComm.Engine.Egress
import PqComm.Engine.SessionMoves

/-!
# Slots of the session table

`session_alloc_for_peer` hands out the slots of the table in order.  Giving a
session up resets it, but nothing gives its slot back, so the table counts the
calls that came to the allocator, whatever became of their sessions.
-/

namespace PqComm

open Lib

/-- The entries of the table that are marked in use. -/
def Engine.slotsInUse (e : Engine) : Nat :=
  e.sessionCount

/-- The engine has one session at most. -/
def Engine.liveSessions (e : Engine) : Nat :=
  e.session.elim 0 fun _ => 1

/-- The call comes to `session_alloc_for_peer`. -/
def EngineAct.asksSlot (e : Engine) : EngineAct → Bool
  | .connect env _ =>
      e.initialized && e.session.isNone && env.address.isSome
  | .sendConnectRequest address _ _ _ _ =>
      e.initialized && address.isSome
  | .acceptConnection address _ _ => e.initialized && address.isSome
  | .declineConnection address _ _ => e.initialized && address.isSome
  | _ => false

section

variable (C : CryptoSuite)

/-- The calls of a run that come to `session_alloc_for_peer`. -/
def slotRequests (e : Engine) : List EngineAct → Nat
  | [] => 0
  | act :: rest =>
      (act.asksSlot e).toNat + slotRequests (e.step C act) rest

/-- `transport_engine_connect` takes a slot and, when there is a buffer for
HELLO, leaves it as the session of the engine. -/
def ObtainsSlot (env : ConnectEnv) (port : UInt16) (e : Engine) : Prop :=
  let r := transportEngineConnect C env port e
  r.2.slotsInUse = e.slotsInUse + 1 ∧
    (env.buf.isSome → r.1 = 0 ∧ r.2.session = some e.slotsInUse)

variable {C} {e : Engine}

theorem Engine.sessionAlloc_none
    {addr : Bytes} (refused : e.sessionAlloc addr = none) :
    maxSessionEntries ≤ e.sessionCount := by
  unfold Engine.sessionAlloc at refused
  split at refused
  · assumption
  · cases refused

theorem Engine.commit_sessionCount
    (origin : Origin) (i : Nat) (s : Session) (seq : UInt32)
    (out : Option PacketBuf) :
    (e.commit origin i s seq out).sessionCount = e.sessionCount := by
  cases out with
  | none => rfl
  | some p => rfl

theorem not_ready_iff {initialized : Bool} {address : Option Bytes} :
    ((!initialized) = true ∨ address.isNone = true) ↔
      (initialized && address.isSome) = false := by
  cases initialized <;> cases address <;> simp

theorem ready_of_not {initialized : Bool} {address : Option Bytes}
    (ready : ¬((!initialized) = true ∨ address.isNone = true)) :
    (initialized && address.isSome) = true := by
  rw [not_ready_iff, Bool.not_eq_false] at ready
  exact ready

/-! ## What the calls do to the table -/

section Calls

variable (bounded : e.sessionCount ≤ maxSessionEntries)
include bounded

theorem Engine.count_refused
    {f : Engine} {addr : Bytes} (refused : f.sessionAlloc addr = none)
    (same : f.sessionCount = e.sessionCount) (asks : Bool) :
    e.sessionCount =
      min maxSessionEntries (e.sessionCount + asks.toNat) := by
  have full := Engine.sessionAlloc_none refused
  rw [same] at full
  rw [Nat.min_eq_left (Nat.le_add_right_of_le full)]
  exact Nat.le_antisymm bounded full

omit bounded in
theorem Engine.count_taken
    {f g : Engine} {addr : Bytes} {i : Nat} {asks : Bool}
    (allocated : f.sessionAlloc addr = some (i, g))
    (same : f.sessionCount = e.sessionCount) (asked : asks = true) :
    g.sessionCount =
      min maxSessionEntries (e.sessionCount + asks.toNat) := by
  obtain ⟨room, -, rfl⟩ := Engine.sessionAlloc_eq allocated
  rw [same] at room
  rw [asked, Bool.toNat_true, Nat.min_eq_right room, ← same]

theorem Engine.count_idle {asks : Bool} (idle : asks = false) :
    e.sessionCount =
      min maxSessionEntries (e.sessionCount + asks.toNat) := by
  rw [idle, Bool.toNat_false, Nat.add_zero, Nat.min_eq_right bounded]

theorem transportEngineConnect_count (env : ConnectEnv) (port : UInt16) :
    (transportEngineConnect C env port e).2.sessionCount =
      min maxSessionEntries
        (e.sessionCount +
          (e.initialized && e.session.isNone && env.address.isSome).toNat) := by
  unfold transportEngineConnect
  split
  · rename_i closed
    apply Engine.count_idle bounded
    rcases closed with closed | busy
    · rw [Bool.not_eq_eq_eq_not.mp closed]
      rfl
    · rw [Option.isNone_eq_false_iff.mpr busy, Bool.and_false]
      rfl
  · rename_i ready
    dsimp only
    split
    · rename_i unresolved
      apply Engine.count_idle bounded
      rw [Bool.and_eq_false_iff]
      exact Or.inr (by simpa using unresolved)
    · rename_i resolved
      split
      · rename_i refused
        exact Engine.count_refused bounded refused rfl _
      · rename_i i next allocated
        have asks :
            (e.initialized && e.session.isNone && env.address.isSome) =
              true := by
          simp_all [Option.isSome_iff_ne_none]
        rw [← Engine.count_taken allocated rfl asks]
        split
        · rfl
        · exact Engine.commit_sessionCount _ _ _ _ _

theorem transportEngineSendConnectRequest_count
    (address : Option Bytes) (port : UInt16) (username displayName : Bytes)
    (buf : Option PacketBuf) :
    (transportEngineSendConnectRequest address port username displayName
        buf e).2.sessionCount =
      min maxSessionEntries
        (e.sessionCount + (e.initialized && address.isSome).toNat) := by
  unfold transportEngineSendConnectRequest
  split
  · rename_i closed
    exact Engine.count_idle bounded (not_ready_iff.mp closed)
  · rename_i ready
    dsimp only
    split
    · rename_i refused
      exact Engine.count_refused bounded refused rfl _
    · rename_i i next allocated
      rw [← Engine.count_taken allocated rfl (ready_of_not ready)]
      exact Engine.commit_sessionCount _ _ _ _ _

theorem transportEngineAcceptConnection_count
    (address : Option Bytes) (port : UInt16) (buf : Option PacketBuf) :
    (transportEngineAcceptConnection address port buf e).2.sessionCount =
      min maxSessionEntries
        (e.sessionCount + (e.initialized && address.isSome).toNat) := by
  unfold transportEngineAcceptConnection
  split
  · rename_i closed
    exact Engine.count_idle bounded (not_ready_iff.mp closed)
  · rename_i ready
    dsimp only
    split
    · rename_i refused
      exact Engine.count_refused bounded refused rfl _
    · rename_i i next allocated
      rw [← Engine.count_taken allocated rfl (ready_of_not ready)]
      dsimp only
      rw [Engine.commit_sessionCount]
      cases next.session with
      | none => rfl
      | some j => rfl

theorem transportEngineDeclineConnection_count
    (address : Option Bytes) (port : UInt16) (buf : Option PacketBuf) :
    (transportEngineDeclineConnection address port buf e).2.sessionCount =
      min maxSessionEntries
        (e.sessionCount + (e.initialized && address.isSome).toNat) := by
  unfold transportEngineDeclineConnection
  split
  · rename_i closed
    exact Engine.count_idle bounded (not_ready_iff.mp closed)
  · rename_i ready
    dsimp only
    split
    · rename_i refused
      exact Engine.count_refused bounded refused rfl _
    · rename_i i next allocated
      rw [← Engine.count_taken allocated rfl (ready_of_not ready)]
      exact Engine.commit_sessionCount _ _ _ _ _

/-! ## Runs -/

theorem Engine.step_slots (idle : e.FilesIdle) (act : EngineAct) :
    (e.step C act).sessionCount =
      min maxSessionEntries
        (e.sessionCount + (act.asksSlot e).toNat) := by
  cases allocates : act.allocates with
  | false =>
      rw [Engine.step_count idle allocates]
      apply Engine.count_idle bounded
      cases act <;> first | rfl | cases allocates
  | true =>
      cases act with
      | connect env port =>
          exact transportEngineConnect_count bounded env port
      | sendConnectRequest address port username displayName buf =>
          exact transportEngineSendConnectRequest_count bounded address port
            username displayName buf
      | acceptConnection address port buf =>
          exact transportEngineAcceptConnection_count bounded address port buf
      | declineConnection address port buf =>
          exact transportEngineDeclineConnection_count bounded address port
            buf
      | _ => cases allocates

end Calls

theorem Engine.run_slots
    (bounded : e.sessionCount ≤ maxSessionEntries) (idle : e.FilesIdle)
    (acts : List EngineAct) :
    (e.run C acts).sessionCount =
      min maxSessionEntries (e.sessionCount + slotRequests C e acts) := by
  induction acts generalizing e with
  | nil =>
      exact (Nat.min_eq_right bounded).symm
  | cons act rest inductionHypothesis =>
      have first := Engine.step_slots (C := C) bounded idle act
      have stillIdle := (Advances.step (C := C) idle act).idle idle
      have stillBounded : (e.step C act).sessionCount ≤ maxSessionEntries := by
        rw [first]
        exact Nat.min_le_left _ _
      have others := inductionHypothesis stillBounded stillIdle
      rw [first] at others
      change ((e.step C act).run C rest).sessionCount = _
      rw [others, slotRequests]
      omega

/-- With room in the table a connection gets the next slot. -/
theorem transportEngineConnect_obtains
    {env : ConnectEnv} {port : UInt16} (initialized : e.initialized = true)
    (noSession : e.session = none) (resolvable : env.address.isSome = true)
    (room : e.sessionCount < maxSessionEntries) :
    ObtainsSlot C env port e := by
  refine ⟨?_, fun ready => ?_⟩
  · refine (transportEngineConnect_count room.le env port).trans ?_
    rw [initialized, noSession, resolvable]
    exact Nat.min_eq_right room
  · obtain ⟨buf, known⟩ := Option.isSome_iff_exists.mp ready
    unfold transportEngineConnect
    rw [if_neg (by simp [initialized, noSession])]
    dsimp only
    rw [if_neg (by simpa using Option.isSome_iff_ne_none.mp resolvable)]
    split
    · rename_i refused
      exact absurd (Engine.sessionAlloc_none refused) (Nat.not_le.mpr room)
    · rename_i i next allocated
      obtain ⟨-, rfl, -⟩ := Engine.sessionAlloc_eq allocated
      rw [known]
      exact ⟨rfl, rfl⟩

/-- For an engine that runs, has no session and is given an address, connecting
obtains a slot exactly when fewer than `MAX_SESSION_ENTRIES` calls came to the
allocator before, and the slots in use are bounded by the live sessions
exactly when those calls are. -/
theorem connect_obtains_slot_iff
    (config : EngineConfig) (audio video : Bool) (acts : List EngineAct) :
    let start := transportEngineInit config audio video
    let e := start.run C acts
    (∀ env port, e.initialized = true → e.session = none →
      env.address.isSome = true →
      (ObtainsSlot C env port e ↔
        slotRequests C start acts < maxSessionEntries)) ∧
    (e.slotsInUse ≤ e.liveSessions ↔
      slotRequests C start acts ≤ e.liveSessions) := by
  intro start e
  have count :
      e.sessionCount =
        min maxSessionEntries (0 + slotRequests C start acts) :=
    Engine.run_slots (Nat.zero_le _) (filesIdle_init config audio video) acts
  rw [Nat.zero_add] at count
  refine ⟨fun env port initialized noSession resolvable => ⟨?_, ?_⟩, ?_⟩
  · rintro ⟨obtained, -⟩
    by_contra full
    have bounded : e.sessionCount ≤ maxSessionEntries := by
      omega
    have after := transportEngineConnect_count (C := C) bounded env port
    unfold Engine.slotsInUse at obtained
    omega
  · intro few
    apply transportEngineConnect_obtains initialized noSession resolvable
    omega
  · have single : e.liveSessions ≤ 1 := by
      unfold Engine.liveSessions
      cases e.session with
      | none => exact Nat.zero_le 1
      | some i => exact Nat.le_refl 1
    have entries : maxSessionEntries = 32 := rfl
    unfold Engine.slotsInUse
    omega

end

/-- Peers that come and go, one after the other. -/
def comeAndGo (n : Nat) : List EngineAct :=
  (List.replicate n [.connect sampleConnect 9000, .disconnect]).flatten

/-- One peer fewer than the table has entries leaves room for another. -/
theorem connect_obtains_last_slot :
    let e :=
      (transportEngineInit sampleConfig false false).run sampleSuite
        (comeAndGo 31)
    e.session = none ∧ ObtainsSlot sampleSuite sampleConnect 9000 e := by
  have few :
      slotRequests sampleSuite (transportEngineInit sampleConfig false false)
        (comeAndGo 31) < maxSessionEntries := by
    decide +kernel
  have ran :
      let e :=
        (transportEngineInit sampleConfig false false).run sampleSuite
          (comeAndGo 31)
      e.initialized = true ∧ e.session = none := by
    decide +kernel
  obtain ⟨obtains, -⟩ :=
    connect_obtains_slot_iff (C := sampleSuite) sampleConfig false false
      (comeAndGo 31)
  exact ⟨ran.2, (obtains sampleConnect 9000 ran.1 ran.2 rfl).mpr few⟩

/-- No peer is left, every slot is in use and a connection is refused. -/
theorem slots_used_up :
    let e :=
      (transportEngineInit sampleConfig false false).run sampleSuite
        (comeAndGo 32)
    e.initialized = true ∧ e.session = none ∧ e.slotsInUse = 32 ∧
      e.liveSessions = 0 ∧
      (transportEngineConnect sampleSuite sampleConnect 9000 e).1 = -1 ∧
      ¬ObtainsSlot sampleSuite sampleConnect 9000 e := by
  have ran :
      let e :=
        (transportEngineInit sampleConfig false false).run sampleSuite
          (comeAndGo 32)
      let r := transportEngineConnect sampleSuite sampleConnect 9000 e
      e.initialized = true ∧ e.session = none ∧ e.slotsInUse = 32 ∧
        e.liveSessions = 0 ∧ r.1 = -1 ∧ r.2.slotsInUse = 32 := by
    decide +kernel
  obtain ⟨initialized, noSession, full, live, refused, same⟩ := ran
  refine ⟨initialized, noSession, full, live, refused, ?_⟩
  rintro ⟨obtained, -⟩
  rw [same, full] at obtained
  cases obtained

end PqComm
