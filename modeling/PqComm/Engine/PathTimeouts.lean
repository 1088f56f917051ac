import PqComm.Engine.PathStates

/-!
# Silent and busy paths

`heartbeat_tick` looks at the paths only when it has no heartbeat to send, so
that ticks as far apart as the heartbeats never see a timeout.  When a path is
looked at, it counts as silent since the last heartbeat message, whatever other
packets came in on it.
-/

namespace PqComm

open Lib

/-! ## Silence -/

/-- Calls of `heartbeat_tick`, with the buffers they find. -/
def heartbeatTicks (ticks : List (UInt64 × Option PacketBuf)) :
    List (UInt64 × PathAct) :=
  ticks.map fun tick => (tick.1, .heartbeatTick tick.2)

/-- The times of the ticks that come less than an interval after the last
heartbeat that was sent. -/
def checkTimes (interval : UInt32) :
    UInt64 → List (UInt64 × Option PacketBuf) → List UInt64
  | _, [] => []
  | last, (now, buf) :: rest =>
      if now - last < interval.toUInt64 then
        now :: checkTimes interval last rest
      else
        checkTimes interval (if buf.isSome then now else last) rest

/-- The path is in use. -/
def PathState.Up (state : PathState) : Prop :=
  state = .active ∨ state = .degraded

section

variable {p : PathMetrics} {now : UInt64} {interval timeout : UInt32}

@[simp]
theorem PathMetrics.age_lastActivityMs :
    (p.age now interval timeout).lastActivityMs = p.lastActivityMs := by
  unfold PathMetrics.age
  dsimp only
  split <;> split <;> rfl

theorem three_intervals_lt
    (longer : 3 * interval.toNat < timeout.toNat) :
    (interval * 3).toUInt64 < timeout.toUInt64 := by
  rw [UInt64.lt_iff_toNat_lt, UInt32.toNat_toUInt64, UInt32.toNat_toUInt64,
    UInt32.toNat_mul]
  calc
    interval.toNat * (3 : UInt32).toNat % 2 ^ 32 ≤ interval.toNat * 3 :=
      Nat.mod_le _ _
    _ < timeout.toNat := by omega

/-- The state a tick that looks at a path gives it. -/
theorem PathMetrics.age_state :
    (p.age now interval timeout).state =
      if p.state = .active ∧
          now - p.lastActivityMs > (interval * 3).toUInt64 then
        if now - p.lastActivityMs > timeout.toUInt64 then .down
        else .degraded
      else if p.state = .degraded ∧
          now - p.lastActivityMs > timeout.toUInt64 then
        .down
      else
        p.state := by
  unfold PathMetrics.age
  dsimp only
  by_cases worse :
      p.state = .active ∧ now - p.lastActivityMs > (interval * 3).toUInt64
  · simp only [worse, and_self, if_true, true_and]
    split <;> rfl
  · simp only [worse, if_false]
    split <;> rfl

/-- A path that has been silent for longer than the timeout. -/
theorem PathMetrics.age_timeout
    (up : p.state.Up) (longer : 3 * interval.toNat < timeout.toNat)
    (silent : now - p.lastActivityMs > timeout.toUInt64) :
    (p.age now interval timeout).state = .down := by
  have degraded : now - p.lastActivityMs > (interval * 3).toUInt64 :=
    UInt64.lt_trans (three_intervals_lt longer) silent
  rw [PathMetrics.age_state]
  rcases up with active | worse
  · rw [if_pos ⟨active, degraded⟩, if_pos silent]
  · rw [if_neg (by simp [worse]), if_pos ⟨worse, silent⟩]

theorem PathMetrics.age_up
    (up : p.state.Up) (heard : ¬ now - p.lastActivityMs > timeout.toUInt64) :
    (p.age now interval timeout).state.Up := by
  rw [PathMetrics.age_state]
  by_cases worse :
      p.state = .active ∧ now - p.lastActivityMs > (interval * 3).toUInt64
  · rw [if_pos worse, if_neg heard]
    exact Or.inr rfl
  · rw [if_neg worse, if_neg (fun both => heard both.2)]
    exact up

end

section

variable {w : PathSide} {now : UInt64}

/-- `heartbeat_tick` less than an interval after the last heartbeat. -/
theorem PathSide.step_heartbeatTick_soon
    (locked : w.sess.state = .locked) (buf : Option PacketBuf)
    (soon :
      now - w.sess.resilience.lastHeartbeatMs <
        w.sess.resilience.heartbeatIntervalMs.toUInt64) :
    w.step now (.heartbeatTick buf) = w.step now .resilienceTick := by
  change PathSide.mk (PqComm.heartbeatTick w.sess buf w.seq now).sess
    (PqComm.heartbeatTick w.sess buf w.seq now).seq = _
  unfold PqComm.heartbeatTick
  rw [if_neg (not_not.mpr locked), if_neg (UInt64.not_le.mpr soon)]
  rfl

/-- `heartbeat_tick` when a heartbeat is due. -/
theorem PathSide.step_heartbeatTick_due
    (locked : w.sess.state = .locked) (buf : Option PacketBuf)
    (due :
      ¬ now - w.sess.resilience.lastHeartbeatMs <
        w.sess.resilience.heartbeatIntervalMs.toUInt64) :
    (w.step now (.heartbeatTick buf)).sess =
      { w.sess with
        resilience :=
          { w.sess.resilience with
            lastHeartbeatMs :=
              if buf.isSome then now
              else w.sess.resilience.lastHeartbeatMs } } := by
  change (PqComm.heartbeatTick w.sess buf w.seq now).sess = _
  unfold PqComm.heartbeatTick heartbeatSend
  rw [if_neg (not_not.mpr locked), if_pos (UInt64.not_lt.mp due),
    if_neg (not_not.mpr locked)]
  cases buf with
  | none => rfl
  | some buf => rfl

end

/-- A path that is down stays down while nothing is received. -/
theorem PathSide.run_down
    (w : PathSide) {i : Nat} (down : (w.path i).state = .down)
    (ticks : List (UInt64 × Option PacketBuf)) :
    ((w.run (heartbeatTicks ticks)).path i).state = .down := by
  induction ticks generalizing w with
  | nil =>
      exact down
  | cons tick rest inductionHypothesis =>
      obtain ⟨now, buf⟩ := tick
      apply inductionHypothesis (w.step now (.heartbeatTick buf))
      have silent : (PathAct.heartbeatTick buf).Silent := trivial
      have worse := (w.rank_step_iff now silent i).mpr not_false
      rw [down] at worse
      cases after : ((w.step now (.heartbeatTick buf)).path i).state with
      | down => rfl
      | unknown => rw [after] at worse; cases worse
      | active => rw [after] at worse; cases worse
      | degraded => rw [after] at worse; cases worse

/-- Calls of `heartbeat_tick` take a path down exactly when one of them comes
later than the timeout and less than an interval after the last heartbeat. -/
theorem heartbeatTicks_down_iff
    (w : PathSide) (locked : w.sess.state = .locked) {i : Nat}
    (inside : i < w.sess.resilience.pathCount)
    (up : (w.path i).state.Up)
    (longer :
      3 * w.sess.resilience.heartbeatIntervalMs.toNat <
        w.sess.resilience.reconnectTimeoutMs.toNat)
    (ticks : List (UInt64 × Option PacketBuf)) :
    ((w.run (heartbeatTicks ticks)).path i).state = .down ↔
      ∃ now ∈ checkTimes w.sess.resilience.heartbeatIntervalMs
          w.sess.resilience.lastHeartbeatMs ticks,
        now - (w.path i).lastActivityMs >
          w.sess.resilience.reconnectTimeoutMs.toUInt64 := by
  induction ticks generalizing w with
  | nil =>
      refine iff_of_false ?_ (fun ⟨_, member, _⟩ => nomatch member)
      intro down
      change (w.path i).state = .down at down
      rw [down] at up
      rcases up with up | up <;> cases up
  | cons tick rest inductionHypothesis =>
      obtain ⟨now, buf⟩ := tick
      change (((w.step now (.heartbeatTick buf)).run
        (heartbeatTicks rest)).path i).state = .down ↔ _
      rw [checkTimes]
      by_cases soon :
          now - w.sess.resilience.lastHeartbeatMs <
            w.sess.resilience.heartbeatIntervalMs.toUInt64
      · rw [if_pos soon, w.step_heartbeatTick_soon locked buf soon,
          List.exists_mem_cons_iff]
        have aged :
            (w.step now .resilienceTick).path i =
              (w.path i).age now w.sess.resilience.heartbeatIntervalMs
                w.sess.resilience.reconnectTimeoutMs :=
          if_pos inside
        by_cases silent :
            now - (w.path i).lastActivityMs >
              w.sess.resilience.reconnectTimeoutMs.toUInt64
        · refine iff_of_true (PathSide.run_down _ ?_ rest) (Or.inl silent)
          rw [aged]
          exact PathMetrics.age_timeout up longer silent
        · have next :=
            inductionHypothesis (w.step now .resilienceTick) locked inside
              (by
                rw [aged]
                exact PathMetrics.age_up up silent)
              longer
          rw [aged, PathMetrics.age_lastActivityMs] at next
          rw [next]
          simp only [silent, false_or]
          rfl
      · rw [if_neg soon]
        have due := w.step_heartbeatTick_due locked buf soon
        have same :
            (w.step now (.heartbeatTick buf)).path i = w.path i := by
          unfold PathSide.path
          rw [due]
        have next :=
          inductionHypothesis (w.step now (.heartbeatTick buf))
            (by rw [due]; exact locked) (by rw [due]; exact inside)
            (by rw [same]; exact up) (by rw [due]; exact longer)
        rw [same] at next
        rw [next, due]

/-- The second tick comes half an interval after the first. -/
theorem heartbeatTicks_down_iff_sample :
    ((sampleWorn.run
      (heartbeatTicks [(6000, some default), (6500, some default)])).path
        0).state = .down := by
  refine (heartbeatTicks_down_iff sampleWorn rfl (i := 0) (by decide)
    (Or.inl rfl) (by decide) _).mpr ?_
  exact ⟨6500, by decide, by decide⟩

/-- Ticks at the intervals at which heartbeats are due, all of them later than
the timeout: the path is still active. -/
theorem heartbeatTicks_miss_timeout :
    sampleWorn.sess.state = .locked ∧ (sampleWorn.path 0).state = .active ∧
      3 * sampleWorn.sess.resilience.heartbeatIntervalMs.toNat <
        sampleWorn.sess.resilience.reconnectTimeoutMs.toNat ∧
      (sampleWorn.path 0).lastActivityMs.toNat +
        sampleWorn.sess.resilience.reconnectTimeoutMs.toNat < 6000 ∧
      ((sampleWorn.run
        (heartbeatTicks
          [(6000, some default), (7000, some default),
            (8000, some default)])).path 0).state = .active :=
  ⟨rfl, rfl, by decide, by decide, by decide +kernel⟩

/-! ## Receptions -/

/-- The message is one that `heartbeat_handle` takes for a sign of life. -/
def PacketBuf.IsHeartbeat (p : PacketBuf) : Prop :=
  ¬ p.len < 25 ∧
    (p.opcode = ctrlHeartbeat ∧ ¬ p.len < 41 ∨
      p.opcode = ctrlHeartbeatAck)

instance (p : PacketBuf) : Decidable p.IsHeartbeat :=
  inferInstanceAs (Decidable (_ ∧ _))

/-- The times at which packets were accepted on a path. -/
def acceptedAt (i : Nat) (acts : List (UInt64 × PathAct)) : List UInt64 :=
  acts.filterMap fun
    | (now, .data on _ _ _) => if on = i then some now else none
    | (now, .heartbeat on p _) =>
        if on = i ∧ p.IsHeartbeat then some now else none
    | _ => none

/-- The time of the last heartbeat message, when there was one. -/
def lastHeard : UInt64 → List (UInt64 × PathAct) → UInt64
  | first, [] => first
  | first, (now, .heartbeat _ p _) :: rest =>
      lastHeard (if p.IsHeartbeat then now else first) rest
  | first, _ :: rest => lastHeard first rest

/-- A message of `heartbeat_handle` sets the time of all paths. -/
theorem PathSide.step_heartbeat
    (w : PathSide) (now : UInt64) (on : Nat) (p : PacketBuf)
    (buf : Option PacketBuf) :
    (w.step now (.heartbeat on p buf)).sess =
      if p.IsHeartbeat then w.sess.heardHeartbeat now else w.sess := by
  change (heartbeatHandle p w.sess buf w.seq now).sess = _
  unfold heartbeatHandle
  by_cases short : p.len < 25
  · rw [if_pos short, if_neg fun beat : p.IsHeartbeat => beat.1 short]
  · rw [if_neg short]
    by_cases beat : p.opcode = ctrlHeartbeat
    · rw [if_pos beat]
      by_cases cut : p.len < 41
      · have not : ¬ p.IsHeartbeat := by
          rintro ⟨-, ⟨-, long⟩ | ack⟩
          · exact long cut
          · rw [beat] at ack
            exact absurd ack (by decide)
        rw [if_pos cut, if_neg not]
      · have whole : p.IsHeartbeat := ⟨short, Or.inl ⟨beat, cut⟩⟩
        rw [if_neg cut, if_pos whole]
        cases buf with
        | none => rfl
        | some buf => rfl
    · rw [if_neg beat]
      by_cases ack : p.opcode = ctrlHeartbeatAck
      · have whole : p.IsHeartbeat := ⟨short, Or.inr ack⟩
        rw [if_pos ack, if_pos whole]
      · have not : ¬ p.IsHeartbeat := by
          rintro ⟨-, ⟨is, -⟩ | is⟩
          · exact beat is
          · exact ack is
        rw [if_neg ack, if_neg not]

theorem PathMetrics.lose_lastActivityMs (p : PathMetrics) :
    p.lose.lastActivityMs = p.lastActivityMs := by
  unfold PathMetrics.lose
  dsimp only
  split <;> split <;> rfl

theorem resilienceRecordRx_lastActivityMs
    (r : Resilience) (idx : Nat) (rtt : UInt64) (i : Nat) :
    ((resilienceRecordRx r idx rtt).paths i).lastActivityMs =
      (r.paths i).lastActivityMs := by
  unfold resilienceRecordRx
  split
  · rfl
  · simp only [Resilience.setPath, PathMetrics.record, updateLossRate,
      PathMetrics.recordRtt]
    split
    · split <;> rfl
    · rfl

theorem sameTiming_resilienceRecordRx
    (r : Resilience) (idx : Nat) (rtt : UInt64) :
    SameTiming r (resilienceRecordRx r idx rtt) := by
  unfold resilienceRecordRx
  split
  · exact SameTiming.refl r
  · exact ⟨rfl, rfl, rfl⟩

theorem sameTiming_resilienceRecordLoss (r : Resilience) (idx : Nat) :
    SameTiming r (resilienceRecordLoss r idx) := by
  unfold resilienceRecordLoss
  split
  · exact SameTiming.refl r
  · exact ⟨rfl, rfl, rfl⟩

theorem PathSide.aged_lastActivityMs
    (w : PathSide) (now : UInt64) (i : Nat) :
    (w.aged now i).lastActivityMs = (w.path i).lastActivityMs := by
  unfold PathSide.aged
  split
  · exact PathMetrics.age_lastActivityMs
  · rfl

/-- What a step does to the clocks of the paths of a locked session. -/
structure StepTimes (w : PathSide) (now : UInt64) (act : PathAct) : Prop where
  locked : (w.step now act).sess.state = .locked
  timing : SameTiming w.sess.resilience (w.step now act).sess.resilience
  heard :
    ∀ i, i < w.sess.resilience.pathCount →
      ((w.step now act).path i).lastActivityMs =
        lastHeard (w.path i).lastActivityMs [(now, act)]

theorem PathSide.stepTimes
    (w : PathSide) (locked : w.sess.state = .locked) (now : UInt64)
    (act : PathAct) : StepTimes w now act := by
  cases act with
  | data on v dataBuf parityBuf =>
      have same := samePaths_resilienceCheck v dataBuf parityBuf locked
      have core :=
        (reassembles_resilienceCheck v w.sess dataBuf parityBuf).untouched
      refine ⟨core.state.trans locked,
        (sameTiming_resilienceRecordRx _ _ _).trans same.toSameTiming,
        fun i _ => ?_⟩
      change ((resilienceCheck v w.sess dataBuf parityBuf).1.resilience.paths
        i).lastActivityMs = _
      rw [same.paths, resilienceRecordRx_lastActivityMs]
      rfl
  | heartbeat on p buf =>
      have handled := w.step_heartbeat now on p buf
      by_cases beat : p.IsHeartbeat
      · rw [if_pos beat] at handled
        refine ⟨by rw [handled]; exact locked,
          by rw [handled]; exact ⟨rfl, rfl, rfl⟩, fun i inside => ?_⟩
        rw [PathSide.path, handled, lastHeard, if_pos beat]
        change (if i < _ then _ else _ : PathMetrics).lastActivityMs = now
        rw [if_pos inside]
      · rw [if_neg beat] at handled
        refine ⟨by rw [handled]; exact locked,
          by rw [handled]; exact SameTiming.refl _, fun i inside => ?_⟩
        rw [PathSide.path, handled, lastHeard, if_neg beat]
        rfl
  | loss idx =>
      refine ⟨locked, sameTiming_resilienceRecordLoss _ idx, fun i _ => ?_⟩
      rw [w.step_loss]
      split
      · exact PathMetrics.lose_lastActivityMs _
      · rfl
  | resilienceTick =>
      exact ⟨locked, ⟨rfl, rfl, rfl⟩,
        fun i _ => w.aged_lastActivityMs now i⟩
  | heartbeatTick buf =>
      by_cases soon :
          now - w.sess.resilience.lastHeartbeatMs <
            w.sess.resilience.heartbeatIntervalMs.toUInt64
      · have same := w.step_heartbeatTick_soon locked buf soon
        refine ⟨by rw [same]; exact locked,
          by rw [same]; exact ⟨rfl, rfl, rfl⟩, fun i _ => ?_⟩
        rw [same]
        exact w.aged_lastActivityMs now i
      · have due := w.step_heartbeatTick_due locked buf soon
        refine ⟨by rw [due]; exact locked,
          by rw [due]; exact ⟨rfl, rfl, rfl⟩, fun i _ => ?_⟩
        rw [PathSide.path, due]
        rfl

theorem lastHeard_cons (first now : UInt64) (act : PathAct)
    (rest : List (UInt64 × PathAct)) :
    lastHeard first ((now, act) :: rest) =
      lastHeard (lastHeard first [(now, act)]) rest := by
  cases act <;> rfl

/-- The same for a run: only heartbeat messages have set the clocks. -/
theorem PathSide.runTimes
    (w : PathSide) (locked : w.sess.state = .locked)
    (acts : List (UInt64 × PathAct)) :
    (w.run acts).sess.state = .locked ∧
      SameTiming w.sess.resilience (w.run acts).sess.resilience ∧
      ∀ i, i < w.sess.resilience.pathCount →
        ((w.run acts).path i).lastActivityMs =
          lastHeard (w.path i).lastActivityMs acts := by
  induction acts generalizing w with
  | nil =>
      exact ⟨locked, SameTiming.refl _, fun _ _ => rfl⟩
  | cons act rest inductionHypothesis =>
      obtain ⟨now, act⟩ := act
      have first := w.stepTimes locked now act
      obtain ⟨stays, timing, heard⟩ :=
        inductionHypothesis (w.step now act) first.locked
      refine ⟨stays, first.timing.trans timing, fun i inside => ?_⟩
      have still : i < (w.step now act).sess.resilience.pathCount := by
        rw [first.timing.pathCount]
        exact inside
      rw [PathSide.run_cons, heard i still, first.heard i inside,
        ← lastHeard_cons]

/-- At `now`, after the acts, a path is active and a packet was accepted on it
within the last three intervals. -/
structure PathSide.Live (w : PathSide) (before : List (UInt64 × PathAct))
    (now : UInt64) (i : Nat) : Prop where
  inside : i < w.sess.resilience.pathCount
  active : ((w.run before).path i).state = .active
  accepted :
    ∃ time ∈ acceptedAt i before, time ≤ now ∧
      now.toNat ≤
        time.toNat + 3 * w.sess.resilience.heartbeatIntervalMs.toNat

/-- An active path stays active when a tick does not look at it or finds that
it was heard of within three intervals. -/
theorem PathSide.step_active_iff
    {w : PathSide} {now : UInt64} {act : PathAct} {i : Nat}
    (tick : act.IsTick) (inside : i < w.sess.resilience.pathCount)
    (active : (w.path i).state = .active) :
    ((w.step now act).path i).state = .active ↔
      (w.Checks now act →
        now - (w.path i).lastActivityMs ≤
          (w.sess.resilience.heartbeatIntervalMs * 3).toUInt64) := by
  by_cases checks : w.Checks now act
  · rw [w.step_checks checks, PathSide.aged, if_pos inside,
      PathMetrics.age_state]
    by_cases silent :
        now - (w.path i).lastActivityMs >
          (w.sess.resilience.heartbeatIntervalMs * 3).toUInt64
    · rw [if_pos ⟨active, silent⟩]
      refine iff_of_false ?_ fun heard =>
        absurd (heard checks) (UInt64.not_le.mpr silent)
      split <;> exact nofun
    · rw [if_neg (fun both => silent both.2), if_neg (by simp [active])]
      exact iff_of_true active fun _ => UInt64.not_lt.mp silent
  · rw [w.step_sends tick checks]
    exact iff_of_true active fun looks => absurd looks checks

theorem PathSide.Checks.isTick
    {w : PathSide} {now : UInt64} {act : PathAct}
    (checks : w.Checks now act) : act.IsTick := by
  cases act with
  | resilienceTick => trivial
  | heartbeatTick _ => trivial
  | data _ _ _ _ => cases checks
  | heartbeat _ _ _ => cases checks
  | loss _ => cases checks

/-- No tick of a run takes a live path out of its state exactly when every tick
that looks at the paths comes within three intervals of the last heartbeat
message. -/
theorem live_paths_active_iff
    (w : PathSide) (locked : w.sess.state = .locked)
    (acts : List (UInt64 × PathAct)) :
    (∀ before act after, acts = before ++ act :: after → act.2.IsTick →
        ∀ i, w.Live before act.1 i →
          ((w.run (before ++ [act])).path i).state = .active) ↔
      ∀ before act after, acts = before ++ act :: after →
        (w.run before).Checks act.1 act.2 →
          ∀ i, w.Live before act.1 i →
            act.1 - lastHeard (w.path i).lastActivityMs before ≤
              (w.sess.resilience.heartbeatIntervalMs * 3).toUInt64 := by
  have each (before : List (UInt64 × PathAct)) (act : UInt64 × PathAct)
      (tick : act.2.IsTick) (i : Nat) (live : w.Live before act.1 i) :
      ((w.run (before ++ [act])).path i).state = .active ↔
        ((w.run before).Checks act.1 act.2 →
          act.1 - lastHeard (w.path i).lastActivityMs before ≤
            (w.sess.resilience.heartbeatIntervalMs * 3).toUInt64) := by
    obtain ⟨-, timing, heard⟩ := w.runTimes locked before
    have step :
        (((w.run before).step act.1 act.2).path i).state = .active ↔ _ :=
      PathSide.step_active_iff tick
        (by rw [timing.pathCount]; exact live.inside) live.active
    rw [heard i live.inside, timing.interval] at step
    rw [PathSide.run_append]
    exact step
  constructor
  · intro kept before act after split checks i live
    exact (each before act checks.isTick i live).mp
      (kept before act after split checks.isTick i live) checks
  · intro heard before act after split tick i live
    exact (each before act tick i live).mpr fun checks =>
      heard before act after split checks i live

/-- A chat packet that comes in on path 0. -/
def sampleChatIn : PathAct :=
  .data 0 (builtView default true 0 0 chChat 3 [104, 105]) none none

def sampleSign : PathAct :=
  .heartbeat 0
    (controlPacket default true 0 4
      (ctrlHeartbeat :: (leBytes 8 0 ++ leBytes 8 0))) none

theorem live_paths_active_iff_sample :
    (((sampleWorn.run [(9000, sampleSign), (9500, sampleChatIn)]).step
      10000 .resilienceTick).path 0).state = .active := by
  have live :
      sampleWorn.Live [(9000, sampleSign), (9500, sampleChatIn)] 10000
        0 := by
    refine ⟨by decide, by decide +kernel, 9500, ?_, by decide, by decide⟩
    decide +kernel
  refine (live_paths_active_iff sampleWorn rfl
    [(9000, sampleSign), (9500, sampleChatIn),
      (10000, .resilienceTick)]).mpr ?_ _ (10000, .resilienceTick) [] rfl
    trivial 0 live
  refine forall_split_cons.mpr ⟨?_, forall_split_cons.mpr ⟨?_,
    forall_split_cons.mpr ⟨?_, forall_split_nil⟩⟩⟩
  · intro checks
    cases checks
  · intro checks
    cases checks
  · intro _ i _
    have heard :
        lastHeard (sampleWorn.path i).lastActivityMs
          [(9000, sampleSign), (9500, sampleChatIn)] = 9000 := by
      rw [sampleSign, lastHeard, if_pos (by decide +kernel)]
      rfl
    rw [heard]
    decide

/-- A packet is accepted at 9000 and the tick one millisecond later takes the
path down. -/
theorem live_path_taken_down :
    sampleWorn.Live [(9000, sampleChatIn)] 9001 0 ∧
      ((sampleWorn.run [(9000, sampleChatIn), (9001, .resilienceTick)]).path
        0).state = .down := by
  constructor
  · refine ⟨by decide, by decide +kernel, 9000, ?_, by decide, by decide⟩
    decide +kernel
  · decide +kernel

end PqComm
