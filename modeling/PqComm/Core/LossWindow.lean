import PqComm.Core.Resilience
import PqComm.Lib.CircularBuffer

/-!
# The loss window of a path

The window is an array of 64 marks, and the next mark goes to the place of a
counter of 32 bits that is never set back.  As 64 divides `2 ^ 32`, the places
go round without a gap when the counter wraps, and the window always holds the
last 64 events of the path.
-/

namespace PqComm

open Lib

/-! ## The events of a path -/

/-- A call that records an event. -/
inductive RecordAct where
  | rx (idx : Nat) (rtt : UInt64)
  | loss (idx : Nat)

def recordStep (r : Resilience) : RecordAct → Resilience
  | .rx idx rtt => resilienceRecordRx r idx rtt
  | .loss idx => resilienceRecordLoss r idx

def RecordAct.idx : RecordAct → Nat
  | .rx idx _ => idx
  | .loss idx => idx

def RecordAct.isLoss : RecordAct → Bool
  | .rx _ _ => false
  | .loss _ => true

/-- The events that are recorded for a path, a loss being `true`. -/
def pathEvents (path : Nat) (acts : List RecordAct) : List Bool :=
  (acts.filter fun act =>
    act.idx == path && decide (act.idx < resilienceMaxPaths)).map
      RecordAct.isLoss

/-! ## What the window holds -/

/-- The window of a path with these events, and the rate last computed. -/
structure LossLog (p : PathMetrics) (events : List Bool) : Prop where
  window :
    Circular resilienceLossWindow p.lossWindow p.lossWindowPos.toNat
      (lastWindow resilienceLossWindow false events)
  rate : p.lossRate = (events.rtake resilienceLossWindow).count true

section

variable {p : PathMetrics} {events : List Bool}

/-- What `update_loss_rate` counts. -/
theorem LossLog.counted (log : LossLog p events) :
    (updateLossRate p).lossRate =
      (events.rtake resilienceLossWindow).count true := by
  have counted :=
    log.window.countP_range (length_lastWindow _ _ _) (· == true)
  rw [countP_lastWindow _ _ _ rfl] at counted
  rw [List.count, ← counted]
  change List.countP p.lossWindow _ = _
  congr 1
  funext i
  exact (beq_true _).symm

/-- The place after the last is the first, also when the counter wraps. -/
theorem toNat_add_one_mod_window (pos : UInt32) :
    (pos + 1).toNat % resilienceLossWindow =
      (pos.toNat + 1) % resilienceLossWindow := by
  rw [UInt32.toNat_add, resilienceLossWindow]
  exact Nat.mod_mod_of_dvd _ (by decide)

/-- A recorded event is the last one. -/
theorem LossLog.record (log : LossLog p events) (lost : Bool) :
    LossLog (p.record lost) (events ++ [lost]) := by
  have size := length_lastWindow resilienceLossWindow false events
  have held := log.window
  have later := lastWindow_concat resilienceLossWindow false events lost
  have window :
      Circular resilienceLossWindow (p.record lost).lossWindow
        (p.record lost).lossWindowPos.toNat
        (lastWindow resilienceLossWindow false (events ++ [lost])) := by
    rw [later]
    cases shape : lastWindow resilienceLossWindow false events with
    | nil =>
        rw [shape] at size
        cases size
    | cons first rest =>
        rw [shape] at held size
        exact (held.rotate size lost).congr_start
          (toNat_add_one_mod_window p.lossWindowPos)
  have unrated :
      LossLog
        { p.record lost with
          lossRate :=
            ((events ++ [lost]).rtake resilienceLossWindow).count true }
        (events ++ [lost]) :=
    ⟨window, rfl⟩
  exact ⟨window, unrated.counted⟩

/-- The rest of `resilience_record_rx` does not touch the window. -/
theorem LossLog.received (log : LossLog p events) (rtt : UInt64) :
    LossLog { p.recordRtt rtt with state := .active } events := by
  have same :
      (p.recordRtt rtt).lossWindow = p.lossWindow ∧
        (p.recordRtt rtt).lossWindowPos = p.lossWindowPos ∧
        (p.recordRtt rtt).lossRate = p.lossRate := by
    unfold PathMetrics.recordRtt
    split
    · exact ⟨rfl, rfl, rfl⟩
    · exact ⟨rfl, rfl, rfl⟩
  obtain ⟨window, pos, rate⟩ := same
  refine ⟨?_, rate.trans log.rate⟩
  change Circular _ (p.recordRtt rtt).lossWindow _ _
  rw [window]
  change Circular _ _ (p.recordRtt rtt).lossWindowPos.toNat _
  rw [pos]
  exact log.window

/-- The rest of `resilience_record_loss` does not touch the window. -/
theorem LossLog.judged (log : LossLog p events) :
    LossLog
      (let q := if 10 * p.lossRate > 3 * 64 then
        { p with state := .degraded } else p
      if 2 * q.lossRate > 64 then { q with state := .down } else q)
      events := by
  dsimp only
  split
  · split
    · exact ⟨log.window, log.rate⟩
    · exact ⟨log.window, log.rate⟩
  · split
    · exact ⟨log.window, log.rate⟩
    · exact log

end

/-- Before any event the window is full of receptions. -/
theorem LossLog.init (path : Nat) :
    LossLog (resilienceInit.paths path) [] := by
  refine ⟨⟨Nat.le_refl _, fun i inside => ?_⟩, rfl⟩
  rw [length_lastWindow] at inside
  exact List.getElem?_replicate_of_lt inside

/-! ## Runs -/

section

variable {r : Resilience} {path : Nat} {events : List Bool}

theorem pathEvents_cons (act : RecordAct) (rest : List RecordAct) :
    pathEvents path (act :: rest) =
      (if act.idx = path ∧ act.idx < resilienceMaxPaths then [act.isLoss]
        else []) ++ pathEvents path rest := by
  rw [pathEvents, List.filter_cons]
  by_cases taken : act.idx = path ∧ act.idx < resilienceMaxPaths
  · rw [if_pos (by simpa using taken), if_pos taken]
    rfl
  · rw [if_neg (by simpa using taken), if_neg taken]
    rfl

theorem setPath_paths
    (r : Resilience) (idx : Nat) (change : PathMetrics → PathMetrics)
    (path : Nat) :
    (r.setPath idx change).paths path =
      if path = idx then change (r.paths path) else r.paths path :=
  rfl

/-- A call adds its event to the log of its own path and to no other. -/
theorem LossLog.step
    (log : LossLog (r.paths path) events) (act : RecordAct) :
    LossLog ((recordStep r act).paths path)
      (events ++
        if act.idx = path ∧ act.idx < resilienceMaxPaths then [act.isLoss]
        else []) := by
  cases act with
  | rx idx rtt =>
      change LossLog ((resilienceRecordRx r idx rtt).paths path)
        (events ++ if idx = path ∧ idx < resilienceMaxPaths then [false]
          else [])
      unfold resilienceRecordRx
      by_cases outside : idx ≥ resilienceMaxPaths
      · rw [if_pos outside, if_neg (by omega), List.append_nil]
        exact log
      · rw [if_neg outside, setPath_paths]
        by_cases own : path = idx
        · have taken : idx = path ∧ idx < resilienceMaxPaths :=
            ⟨own.symm, by omega⟩
          rw [if_pos own, if_pos taken]
          have counted :
              LossLog
                { r.paths path with
                  packetsRecv := (r.paths path).packetsRecv + 1 } events :=
            ⟨log.window, log.rate⟩
          exact (counted.record false).received rtt
        · rw [if_neg own, if_neg (by omega), List.append_nil]
          exact log
  | loss idx =>
      change LossLog ((resilienceRecordLoss r idx).paths path)
        (events ++ if idx = path ∧ idx < resilienceMaxPaths then [true]
          else [])
      unfold resilienceRecordLoss
      by_cases outside : idx ≥ resilienceMaxPaths
      · rw [if_pos outside, if_neg (by omega), List.append_nil]
        exact log
      · rw [if_neg outside, setPath_paths]
        by_cases own : path = idx
        · have taken : idx = path ∧ idx < resilienceMaxPaths :=
            ⟨own.symm, by omega⟩
          rw [if_pos own, if_pos taken]
          have counted :
              LossLog
                { r.paths path with
                  packetsLost := (r.paths path).packetsLost + 1 } events :=
            ⟨log.window, log.rate⟩
          exact (counted.record true).judged
        · rw [if_neg own, if_neg (by omega), List.append_nil]
          exact log

theorem LossLog.run
    (log : LossLog (r.paths path) events) (acts : List RecordAct) :
    LossLog ((acts.foldl recordStep r).paths path)
      (events ++ pathEvents path acts) := by
  induction acts generalizing r events with
  | nil =>
      rw [pathEvents, List.filter_nil, List.map_nil, List.append_nil]
      exact log
  | cons act rest inductionHypothesis =>
      rw [pathEvents_cons, ← List.append_assoc, List.foldl_cons]
      exact inductionHypothesis (log.step act)

end

/-- After any calls, what `update_loss_rate` counts for a path, and the rate it
has computed last, is the number of losses among the last 64 events. -/
theorem loss_window_exact (acts : List RecordAct) (path : Nat) :
    (updateLossRate
        ((acts.foldl recordStep resilienceInit).paths path)).lossRate =
        ((pathEvents path acts).rtake resilienceLossWindow).count true ∧
      ((acts.foldl recordStep resilienceInit).paths path).lossRate =
        ((pathEvents path acts).rtake resilienceLossWindow).count true := by
  have log := (LossLog.init path).run acts
  rw [List.nil_append] at log
  exact ⟨log.counted, log.rate⟩

end PqComm
