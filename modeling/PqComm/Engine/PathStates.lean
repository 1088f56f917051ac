import PqComm.Engine.Control
import PqComm.Lib.Runs
import PqComm.Pipeline.Delivery

/-!
# The states of the paths over time

A path changes its state when a packet is received or lost and when a tick
finds it silent for too long.  Losses and silence are judged apart from each
other, so that a loss can raise a path that silence has taken down.
-/

namespace PqComm

open Lib

/-- What can happen to the paths of a session.  A packet comes in `on` a path,
which the functions do not look at. -/
inductive PathAct where
  | data (on : Nat) (v : PacketView) (dataBuf parityBuf : Option PacketBuf)
  | heartbeat (on : Nat) (p : PacketBuf) (buf : Option PacketBuf)
  | loss (idx : Nat)
  | resilienceTick
  | heartbeatTick (buf : Option PacketBuf)

/-- A session with its sequence counter. -/
structure PathSide where
  sess : Session
  seq : UInt32

namespace PathSide

def path (w : PathSide) (i : Nat) : PathMetrics :=
  w.sess.resilience.paths i

def step (w : PathSide) (now : UInt64) : PathAct → PathSide
  | .data _ v dataBuf parityBuf =>
      { w with sess := (resilienceCheck v w.sess dataBuf parityBuf).1 }
  | .heartbeat _ p buf =>
      let out := heartbeatHandle p w.sess buf w.seq now
      { sess := out.sess, seq := out.seq }
  | .loss idx =>
      { w with
        sess :=
          { w.sess with
            resilience := resilienceRecordLoss w.sess.resilience idx } }
  | .resilienceTick =>
      { w with
        sess :=
          { w.sess with
            resilience := PqComm.resilienceTick w.sess.resilience now } }
  | .heartbeatTick buf =>
      let out := PqComm.heartbeatTick w.sess buf w.seq now
      { sess := out.sess, seq := out.seq }

def run (w : PathSide) (acts : List (UInt64 × PathAct)) : PathSide :=
  acts.foldl (fun w act => w.step act.1 act.2) w

@[simp]
theorem run_nil (w : PathSide) : w.run [] = w :=
  rfl

@[simp]
theorem run_cons (w : PathSide) (now : UInt64) (act : PathAct)
    (rest : List (UInt64 × PathAct)) :
    w.run ((now, act) :: rest) = (w.step now act).run rest :=
  rfl

theorem run_append (w : PathSide) (first second : List (UInt64 × PathAct)) :
    w.run (first ++ second) = (w.run first).run second :=
  List.foldl_append

end PathSide

/-! ## What stays -/

/-- The intervals and the number of the paths. -/
structure SameTiming (r r' : Resilience) : Prop where
  pathCount : r'.pathCount = r.pathCount
  interval : r'.heartbeatIntervalMs = r.heartbeatIntervalMs
  timeout : r'.reconnectTimeoutMs = r.reconnectTimeoutMs

theorem SameTiming.refl (r : Resilience) : SameTiming r r :=
  ⟨rfl, rfl, rfl⟩

theorem SameTiming.trans
    {r s t : Resilience} (first : SameTiming r s) (second : SameTiming s t) :
    SameTiming r t where
  pathCount := second.pathCount.trans first.pathCount
  interval := second.interval.trans first.interval
  timeout := second.timeout.trans first.timeout

/-- Only FEC has moved. -/
structure SamePaths (r r' : Resilience) : Prop extends SameTiming r r' where
  paths : r'.paths = r.paths
  lastHeartbeat : r'.lastHeartbeatMs = r.lastHeartbeatMs

theorem SamePaths.refl (r : Resilience) : SamePaths r r :=
  ⟨SameTiming.refl r, rfl, rfl⟩

theorem SamePaths.trans
    {r s t : Resilience} (first : SamePaths r s) (second : SamePaths s t) :
    SamePaths r t where
  toSameTiming := first.toSameTiming.trans second.toSameTiming
  paths := second.paths.trans first.paths
  lastHeartbeat := second.lastHeartbeat.trans first.lastHeartbeat

theorem samePaths_fecRxTrack
    (r : Resilience) (seq : UInt32) (payload : Bytes) :
    SamePaths r (fecRxTrack r seq payload) := by
  unfold fecRxTrack
  split
  · exact SamePaths.refl r
  · exact ⟨⟨rfl, rfl, rfl⟩, rfl, rfl⟩

theorem samePaths_fecRxStoreParity (r : Resilience) (wire : Bytes) :
    SamePaths r (fecRxStoreParity r wire) := by
  unfold fecRxStoreParity
  split
  · exact SamePaths.refl r
  · exact ⟨⟨rfl, rfl, rfl⟩, rfl, rfl⟩

theorem samePaths_fecRxRebuild (r : Resilience) :
    SamePaths r (fecRxRebuild r).1 := by
  unfold fecRxRebuild
  split
  · exact SamePaths.refl r
  · dsimp only
    split
    · exact ⟨⟨rfl, rfl, rfl⟩, rfl, rfl⟩
    · split
      · exact SamePaths.refl r
      · exact ⟨⟨rfl, rfl, rfl⟩, rfl, rfl⟩

theorem samePaths_tryRebuild (sess : Session) (buf : Option PacketBuf) :
    SamePaths sess.resilience (tryRebuild sess buf).resilience := by
  have same := samePaths_fecRxRebuild sess.resilience
  unfold tryRebuild
  generalize fecRxRebuild sess.resilience = rebuilt at same
  rcases rebuilt with ⟨resilience, _ | ⟨payload, seq⟩⟩
  · exact same
  · cases buf with
    | none =>
        exact same
    | some buf =>
        exact same

theorem samePaths_trackData
    (v : PacketView) (sess : Session) (buf : Option PacketBuf) :
    SamePaths sess.resilience (trackData v sess buf).resilience := by
  unfold trackData
  split
  · have rebuilt :=
      samePaths_tryRebuild
        { sess with
          resilience := fecRxTrack sess.resilience v.seq v.buf.body } buf
    exact (samePaths_fecRxTrack sess.resilience _ _).trans rebuilt
  · exact SamePaths.refl _

theorem samePaths_trackParity
    (v : PacketView) (sess : Session) (buf : Option PacketBuf) :
    SamePaths sess.resilience (trackParity v sess buf).resilience := by
  unfold trackParity
  split
  · have rebuilt :=
      samePaths_tryRebuild
        { sess with
          resilience := fecRxStoreParity sess.resilience v.buf.body } buf
    exact (samePaths_fecRxStoreParity sess.resilience _).trans rebuilt
  · exact SamePaths.refl _

/-- To the paths, `resilience_check` is `resilience_record_rx` of path 0. -/
theorem samePaths_resilienceCheck
    (v : PacketView) {sess : Session} (dataBuf parityBuf : Option PacketBuf)
    (locked : sess.state = .locked) :
    SamePaths (resilienceRecordRx sess.resilience 0 0)
      (resilienceCheck v sess dataBuf parityBuf).1.resilience := by
  unfold resilienceCheck
  rw [if_neg (not_not.mpr locked)]
  have tracked :=
    samePaths_trackData v
      { sess with resilience := resilienceRecordRx sess.resilience 0 0 }
      dataBuf
  dsimp only
  split
  · exact tracked.trans (samePaths_trackParity v _ parityBuf)
  · exact tracked

/-! ## Ticks -/

def PathAct.IsTick : PathAct → Prop
  | .resilienceTick => True
  | .heartbeatTick _ => True
  | _ => False

/-- The tick looks at the paths. -/
def PathSide.Checks (w : PathSide) (now : UInt64) : PathAct → Prop
  | .resilienceTick => True
  | .heartbeatTick _ =>
      w.sess.state = .locked ∧
        now - w.sess.resilience.lastHeartbeatMs <
          w.sess.resilience.heartbeatIntervalMs.toUInt64
  | _ => False

/-- A path that a tick looks at. -/
def PathSide.aged (w : PathSide) (now : UInt64) (i : Nat) : PathMetrics :=
  if i < w.sess.resilience.pathCount then
    (w.path i).age now w.sess.resilience.heartbeatIntervalMs
      w.sess.resilience.reconnectTimeoutMs
  else
    w.path i

section

variable {w : PathSide} {now : UInt64} {act : PathAct}

theorem PathSide.step_checks (checks : w.Checks now act) (i : Nat) :
    (w.step now act).path i = w.aged now i := by
  cases act with
  | resilienceTick =>
      rfl
  | heartbeatTick buf =>
      obtain ⟨locked, soon⟩ := checks
      change (PqComm.heartbeatTick w.sess buf w.seq now).sess.resilience.paths
        i = _
      unfold PqComm.heartbeatTick
      rw [if_neg (not_not.mpr locked), if_neg (UInt64.not_le.mpr soon)]
      rfl
  | data _ _ _ _ => cases checks
  | heartbeat _ _ _ => cases checks
  | loss _ => cases checks

/-- A tick that sends a heartbeat leaves the paths as they are. -/
theorem PathSide.step_sends
    (tick : act.IsTick) (sends : ¬ w.Checks now act) (i : Nat) :
    (w.step now act).path i = w.path i := by
  cases act with
  | resilienceTick =>
      exact absurd trivial sends
  | heartbeatTick buf =>
      change (PqComm.heartbeatTick w.sess buf w.seq now).sess.resilience.paths
        i = _
      unfold PqComm.heartbeatTick
      split
      · rfl
      · rename_i locked
        split
        · unfold heartbeatSend
          rw [if_neg locked]
          cases buf with
          | none => rfl
          | some buf => rfl
        · rename_i soon
          exact absurd ⟨not_not.mp locked, UInt64.not_le.mp soon⟩ sends
  | data _ _ _ _ => cases tick
  | heartbeat _ _ _ => cases tick
  | loss _ => cases tick

end

/-! ## Losses and silence -/

/-- The states in their order; a path is `unknown` before it is heard of. -/
def PathState.rank : PathState → Nat
  | .down => 0
  | .degraded => 1
  | .active => 2
  | .unknown => 3

/-- The later state is not above the earlier one. -/
def NotBetter (earlier later : PathState) : Prop :=
  later.rank ≤ earlier.rank

instance : Trans NotBetter NotBetter NotBetter :=
  ⟨fun first second => Nat.le_trans second first⟩

theorem PathMetrics.rank_age
    (p : PathMetrics) (now : UInt64) (interval timeout : UInt32) :
    (p.age now interval timeout).state.rank ≤ p.state.rank := by
  unfold PathMetrics.age
  dsimp only
  split
  · rename_i silent
    split
    · exact Nat.zero_le _
    · change PathState.rank .degraded ≤ _
      rw [silent.1]
      decide
  · split
    · exact Nat.zero_le _
    · exact Nat.le_refl _

/-- What `resilience_record_loss` does to a path. -/
def PathMetrics.lose (p : PathMetrics) : PathMetrics :=
  let q := { p with packetsLost := p.packetsLost + 1 }.record true
  let q := if 10 * q.lossRate > 3 * 64 then
    { q with state := .degraded } else q
  if 2 * q.lossRate > 64 then { q with state := .down } else q

/-- The losses in the window but for the entry that is written next. -/
def PathMetrics.lostBesides (p : PathMetrics) : Nat :=
  ((List.range resilienceLossWindow).filter fun i =>
    decide (i ≠ p.lossWindowPos.toNat % resilienceLossWindow)).countP
      p.lossWindow

theorem PathMetrics.lossRate_record (p : PathMetrics) :
    (p.record true).lossRate = p.lostBesides + 1 := by
  let slot := p.lossWindowPos.toNat % resilienceLossWindow
  have inside : slot < resilienceLossWindow := Nat.mod_lt _ (by decide)
  change (List.range resilienceLossWindow).countP
      (fun i => if i = slot then true else p.lossWindow i) = _
  rw [List.countP_eq_countP_filter_add _ _ fun i => decide (i ≠ slot)]
  congr 1
  · apply List.countP_congr
    intro i member
    have other : i ≠ slot := of_decide_eq_true (List.mem_filter.mp member).2
    simp [other]
  · have alone :
        ((List.range resilienceLossWindow).filter fun i =>
          !decide (i ≠ slot)) = [slot] := by
      have same :
          ((List.range resilienceLossWindow).filter fun i =>
            !decide (i ≠ slot)) =
            (List.range resilienceLossWindow).filter fun i =>
              decide (i = slot) := by
        apply List.filter_congr
        intro i _
        simp
      rw [same, List.filter_eq slot, List.count_range, if_pos inside]
      rfl
    rw [alone]
    simp

theorem PathMetrics.lose_state (p : PathMetrics) :
    p.lose.state =
      if p.lostBesides ≥ 32 then .down
      else if p.lostBesides ≥ 19 then .degraded
      else p.state := by
  have rate :
      ({ p with packetsLost := p.packetsLost + 1 }.record true).lossRate =
        p.lostBesides + 1 :=
    PathMetrics.lossRate_record _
  unfold PathMetrics.lose
  generalize q_eq : { p with packetsLost := p.packetsLost + 1 }.record true = q
    at rate ⊢
  have state : q.state = p.state := by
    rw [← q_eq]
    rfl
  dsimp only
  by_cases most : p.lostBesides ≥ 32
  · rw [if_pos (show 10 * q.lossRate > 3 * 64 by omega), if_pos most]
    dsimp only
    rw [if_pos (show 2 * q.lossRate > 64 by omega)]
  · rw [if_neg most]
    by_cases many : p.lostBesides ≥ 19
    · rw [if_pos (show 10 * q.lossRate > 3 * 64 by omega), if_pos many]
      dsimp only
      rw [if_neg (show ¬ 2 * q.lossRate > 64 by omega)]
    · rw [if_neg (show ¬ 10 * q.lossRate > 3 * 64 by omega), if_neg many,
        if_neg (show ¬ 2 * q.lossRate > 64 by omega), state]

/-- A loss raises a path that is down and whose window is then lost to more
than three tenths and at most one half. -/
theorem PathMetrics.rank_lose_iff (p : PathMetrics) :
    p.lose.state.rank ≤ p.state.rank ↔
      ¬ (p.state = .down ∧ 19 ≤ p.lostBesides ∧ p.lostBesides < 32) := by
  rw [p.lose_state]
  by_cases most : p.lostBesides ≥ 32
  · rw [if_pos most]
    constructor
    · rintro - ⟨-, -, few⟩
      omega
    · intro _
      exact Nat.zero_le _
  · rw [if_neg most]
    by_cases many : p.lostBesides ≥ 19
    · rw [if_pos many]
      cases p.state with
      | down => simp [PathState.rank]; omega
      | unknown => simp [PathState.rank]
      | active => simp [PathState.rank]
      | degraded => simp [PathState.rank]
    · rw [if_neg many]
      constructor
      · rintro - ⟨-, enough, -⟩
        exact many enough
      · intro _
        exact Nat.le_refl _

/-- The act is neither a reception nor a message. -/
def PathAct.Silent : PathAct → Prop
  | .data _ _ _ _ => False
  | .heartbeat _ _ _ => False
  | _ => True

/-- A loss is recorded for a path that is down when 19 to 31 of the other
entries of its window are losses. -/
def PathSide.Revives (w : PathSide) (i : Nat) : PathAct → Prop
  | .loss idx =>
      idx = i ∧ i < resilienceMaxPaths ∧ (w.path i).state = .down ∧
        19 ≤ (w.path i).lostBesides ∧ (w.path i).lostBesides < 32
  | _ => False

theorem PathSide.step_loss (w : PathSide) (now : UInt64) (idx i : Nat) :
    (w.step now (.loss idx)).path i =
      if idx = i ∧ i < resilienceMaxPaths then (w.path i).lose
      else w.path i := by
  change (resilienceRecordLoss w.sess.resilience idx).paths i = _
  unfold resilienceRecordLoss
  by_cases beyond : idx ≥ resilienceMaxPaths
  · rw [if_pos beyond, if_neg (by omega)]
    rfl
  · rw [if_neg beyond]
    by_cases same : i = idx
    · rw [if_pos (by omega)]
      exact if_pos same
    · rw [if_neg (by omega)]
      exact if_neg same

/-- One silent step. -/
theorem PathSide.rank_step_iff
    (w : PathSide) (now : UInt64) {act : PathAct} (silent : act.Silent)
    (i : Nat) :
    ((w.step now act).path i).state.rank ≤ (w.path i).state.rank ↔
      ¬ w.Revives i act := by
  have ticks (tick : act.IsTick) :
      ((w.step now act).path i).state.rank ≤ (w.path i).state.rank := by
    by_cases checks : w.Checks now act
    · rw [w.step_checks checks]
      unfold PathSide.aged
      split
      · exact PathMetrics.rank_age _ _ _ _
      · exact Nat.le_refl _
    · rw [w.step_sends tick checks]
  cases act with
  | data _ _ _ _ => cases silent
  | heartbeat _ _ _ => cases silent
  | resilienceTick =>
      exact iff_of_true (ticks trivial) not_false
  | heartbeatTick buf =>
      exact iff_of_true (ticks trivial) not_false
  | loss idx =>
      rw [w.step_loss]
      unfold PathSide.Revives
      by_cases own : idx = i ∧ i < resilienceMaxPaths
      · rw [if_pos own, PathMetrics.rank_lose_iff]
        simp [own]
      · rw [if_neg own]
        refine iff_of_true (Nat.le_refl _) ?_
        rintro ⟨same, inside, -⟩
        exact own ⟨same, inside⟩

/-- The states of a path in the course of a run. -/
def PathSide.states (w : PathSide) (i : Nat)
    (acts : List (UInt64 × PathAct)) : List PathState :=
  observed (fun w act => PathSide.step w act.1 act.2)
    (fun w => (w.path i).state) w acts

/-- Without receptions a path never gets better, exactly when no loss revives
it. -/
theorem states_never_better_iff
    (w : PathSide) (i : Nat) {acts : List (UInt64 × PathAct)}
    (silent : ∀ act ∈ acts, act.2.Silent) :
    (w.states i acts).Pairwise NotBetter ↔
      ∀ before act after, acts = before ++ act :: after →
        ¬ (w.run before).Revives i act.2 := by
  have step (before : List (UInt64 × PathAct)) (act : UInt64 × PathAct)
      (after : List (UInt64 × PathAct))
      (split : acts = before ++ act :: after) :
      NotBetter ((w.run before).path i).state
          (((w.run before).step act.1 act.2).path i).state ↔
        ¬ (w.run before).Revives i act.2 := by
    have member : act ∈ acts := by
      rw [split]
      simp
    exact (w.run before).rank_step_iff act.1 (silent act member) i
  rw [← List.isChain_iff_pairwise, PathSide.states, isChain_observed_iff]
  constructor
  · intro never before act after split
    exact (step before act after split).mp (never before act after split)
  · intro never before act after split
    exact (step before act after split).mpr (never before act after split)

/-- A locked session whose path 0 is active, has lost 19 of its last packets
and has been silent since the beginning. -/
def sampleWorn : PathSide where
  sess :=
    { sessionInit with
      state := .locked
      resilience :=
        { resilienceInit with
          paths := fun _ =>
            { state := .active
              lossWindow := fun k => decide (k < 19)
              lossWindowPos := 19 } } }
  seq := 0

theorem states_never_better_iff_sample :
    (sampleWorn.states 0 [(10000, .resilienceTick)]).Pairwise NotBetter := by
  refine (states_never_better_iff sampleWorn 0 ?_).mpr ?_
  · rw [List.forall_mem_singleton]
    exact trivial
  · exact forall_split_cons.mpr ⟨not_false, forall_split_nil⟩

/-- The silence takes the path down and the next loss makes it better. -/
theorem loss_revives_path :
    (sampleWorn.states 0 [(10000, .resilienceTick), (10001, .loss 0)] =
        [.active, .down, .degraded]) ∧
      ¬ (sampleWorn.states 0
        [(10000, .resilienceTick), (10001, .loss 0)]).Pairwise
          NotBetter := by
  have states :
      sampleWorn.states 0 [(10000, .resilienceTick), (10001, .loss 0)] =
        [.active, .down, .degraded] := by
    decide +kernel
  refine ⟨states, ?_⟩
  rw [states]
  simp [NotBetter, PathState.rank]

end PqComm
