import PqComm.Core.LossWindow
import PqComm.Lib.Smoothing

/-!
# The round-trip estimate of a path

`resilience_record_rx` keeps the least and the greatest round trip of a path
and a mean that is smoothed with weight seven.  All three are zero as long as
no sample was seen, which the code takes as the mark of a first sample, so the
argument needs that a mean of nonzero samples is never zero again.  The same
bound keeps the weighted sum within 64 bits.
-/

namespace PqComm

open Lib

/-- One call of `resilience_record_rx`: a path and a round trip. -/
def rttStep (r : Resilience) (call : Nat × UInt64) : Resilience :=
  resilienceRecordRx r call.1 call.2

/-- The calls that bring a sample for a path. -/
def rttTaken (path : Nat) (call : Nat × UInt64) : Prop :=
  call.1 = path ∧ call.1 < resilienceMaxPaths ∧ call.2 ≠ 0

instance (path : Nat) (call : Nat × UInt64) :
    Decidable (rttTaken path call) :=
  inferInstanceAs (Decidable (_ ∧ _))

/-- The samples of a path. -/
def rttSamples (path : Nat) (calls : List (Nat × UInt64)) : List Nat :=
  (calls.filter fun call => decide (rttTaken path call)).map (·.2.toNat)

theorem rttSamples_concat
    (path : Nat) (calls : List (Nat × UInt64)) (call : Nat × UInt64) :
    rttSamples path (calls ++ [call]) =
      rttSamples path calls ++
        if rttTaken path call then [call.2.toNat] else [] := by
  unfold rttSamples
  rw [List.filter_append, List.map_append]
  by_cases taken : rttTaken path call
  · rw [if_pos taken, List.filter_singleton, decide_eq_true taken]
    rfl
  · rw [if_neg taken, List.filter_singleton, decide_eq_false taken]
    rfl

/-- What the metrics of a path say about its samples. -/
structure RttLog (p : PathMetrics) (samples : List Nat) : Prop where
  fresh : samples = [] → p.rttNs = 0 ∧ p.rttMinNs = 0 ∧ p.rttMaxNs = 0
  tracked :
    samples ≠ [] →
      Tracked p.rttMinNs.toNat p.rttMaxNs.toNat p.rttNs.toNat samples
  positive : ∀ sample ∈ samples, 0 < sample
  bounded : ∀ sample ∈ samples, sample < 2 ^ 60

section

variable {p : PathMetrics} {samples : List Nat}

theorem RttLog.rtt_lt (log : RttLog p samples) : p.rttNs.toNat < 2 ^ 60 := by
  by_cases unseen : samples = []
  · rw [(log.fresh unseen).1]
    decide
  · have tracked := log.tracked unseen
    exact Nat.lt_of_le_of_lt tracked.below
      (log.bounded _ tracked.greatest.1)

/-- The weighted sum of the estimate and a next sample fits. -/
theorem RttLog.sum_lt
    (log : RttLog p samples) {rtt : UInt64} (small : rtt.toNat < 2 ^ 60) :
    p.rttNs.toNat * 7 + rtt.toNat < 2 ^ 64 := by
  have estimate := log.rtt_lt
  omega

theorem RttLog.toNat_mean
    (log : RttLog p samples) {rtt : UInt64} (small : rtt.toNat < 2 ^ 60) :
    ((p.rttNs * 7 + rtt) / 8).toNat =
      smoothed 7 p.rttNs.toNat rtt.toNat := by
  have sum := log.sum_lt small
  have seven : (p.rttNs * 7).toNat = p.rttNs.toNat * 7 := by
    rw [UInt64.toNat_mul]
    exact Nat.mod_eq_of_lt (by change p.rttNs.toNat * 7 < _; omega)
  rw [UInt64.toNat_div, UInt64.toNat_add, seven, Nat.mod_eq_of_lt sum]
  rfl

/-- A first sample is the least, the greatest and the estimate. -/
theorem recordRtt_first
    (log : RttLog p []) {rtt : UInt64} (nonzero : rtt ≠ 0) :
    (p.recordRtt rtt).rttMinNs = rtt ∧ (p.recordRtt rtt).rttMaxNs = rtt ∧
      (p.recordRtt rtt).rttNs = rtt := by
  obtain ⟨estimate, least, greatest⟩ := log.fresh rfl
  have above : rtt > 0 := UInt64.pos_iff_ne_zero.mpr nonzero
  unfold PathMetrics.recordRtt
  rw [if_pos above, estimate, least, greatest]
  dsimp only
  exact ⟨if_pos (Or.inl rfl), if_pos above, if_neg (UInt64.lt_irrefl 0)⟩

/-- A later sample moves the three by one step of the smoothing. -/
theorem recordRtt_next
    (log : RttLog p samples) (seen : samples ≠ [])
    {rtt : UInt64} (nonzero : rtt ≠ 0) (small : rtt.toNat < 2 ^ 60) :
    (p.recordRtt rtt).rttMinNs.toNat = min rtt.toNat p.rttMinNs.toNat ∧
      (p.recordRtt rtt).rttMaxNs.toNat = max rtt.toNat p.rttMaxNs.toNat ∧
      (p.recordRtt rtt).rttNs.toNat =
        smoothed 7 p.rttNs.toNat rtt.toNat := by
  have tracked := log.tracked seen
  have leastPositive := log.positive _ tracked.least.1
  have least : p.rttMinNs ≠ 0 := by
    intro zero
    rw [zero] at leastPositive
    exact absurd leastPositive (by decide)
  have estimate : p.rttNs > 0 :=
    UInt64.lt_iff_toNat_lt.mpr
      (Nat.lt_of_lt_of_le leastPositive tracked.above)
  unfold PathMetrics.recordRtt
  rw [if_pos (UInt64.pos_iff_ne_zero.mpr nonzero)]
  refine ⟨?_, ?_, ?_⟩
  · by_cases lower : rtt < p.rttMinNs
    · have below := UInt64.lt_iff_toNat_lt.mp lower
      dsimp only
      rw [if_pos (Or.inr lower), Nat.min_eq_left (Nat.le_of_lt below)]
    · have above := mt UInt64.lt_iff_toNat_lt.mpr lower
      dsimp only
      rw [if_neg (not_or.mpr ⟨least, lower⟩),
        Nat.min_eq_right (Nat.le_of_not_lt above)]
  · by_cases higher : rtt > p.rttMaxNs
    · have above := UInt64.lt_iff_toNat_lt.mp higher
      dsimp only
      rw [if_pos higher, Nat.max_eq_left (Nat.le_of_lt above)]
    · have below := mt UInt64.lt_iff_toNat_lt.mpr higher
      dsimp only
      rw [if_neg higher, Nat.max_eq_right (Nat.le_of_not_lt below)]
  · dsimp only
    rw [if_pos estimate]
    exact log.toNat_mean small

/-- A sample joins the log. -/
theorem RttLog.sampled
    (log : RttLog p samples) {rtt : UInt64} (nonzero : rtt ≠ 0)
    (small : rtt.toNat < 2 ^ 60) :
    RttLog (p.recordRtt rtt) (samples ++ [rtt.toNat]) where
  fresh := fun none => absurd none (List.append_ne_nil_of_right_ne_nil _
    (List.cons_ne_nil _ _))
  tracked := fun _ => by
    by_cases unseen : samples = []
    · subst unseen
      obtain ⟨least, greatest, estimate⟩ := recordRtt_first log nonzero
      rw [least, greatest, estimate]
      exact Tracked.first rtt.toNat
    · obtain ⟨least, greatest, estimate⟩ :=
        recordRtt_next log unseen nonzero small
      rw [least, greatest, estimate]
      exact (log.tracked unseen).next 7 rtt.toNat
  positive := fun sample member => by
    rcases List.mem_append.mp member with earlier | last
    · exact log.positive sample earlier
    · rw [List.mem_singleton.mp last]
      exact UInt64.lt_iff_toNat_lt.mp (UInt64.pos_iff_ne_zero.mpr nonzero)
  bounded := fun sample member => by
    rcases List.mem_append.mp member with earlier | last
    · exact log.bounded sample earlier
    · rw [List.mem_singleton.mp last]
      exact small

/-- The log is about the three fields only. -/
theorem RttLog.congr
    {q : PathMetrics} (log : RttLog p samples) (estimate : q.rttNs = p.rttNs)
    (least : q.rttMinNs = p.rttMinNs) (greatest : q.rttMaxNs = p.rttMaxNs) :
    RttLog q samples := by
  refine ⟨?_, ?_, log.positive, log.bounded⟩
  · rw [estimate, least, greatest]
    exact log.fresh
  · rw [estimate, least, greatest]
    exact log.tracked

end

/-! ## Runs -/

section

variable {r : Resilience} {path : Nat} {samples : List Nat}

/-- A call adds its sample to the log of its own path and to no other. -/
theorem RttLog.step
    (log : RttLog (r.paths path) samples) (call : Nat × UInt64)
    (small : call.2.toNat < 2 ^ 60) :
    RttLog ((rttStep r call).paths path)
      (samples ++ if rttTaken path call then [call.2.toNat] else []) := by
  unfold rttStep resilienceRecordRx
  by_cases outside : call.1 ≥ resilienceMaxPaths
  · have untaken : ¬ rttTaken path call := fun taken =>
      absurd taken.2.1 (Nat.not_lt_of_le outside)
    rw [if_pos outside, if_neg untaken, List.append_nil]
    exact log
  · rw [if_neg outside, setPath_paths]
    by_cases own : path = call.1
    · rw [if_pos own]
      have counted :
          RttLog
            ({ r.paths path with
                packetsRecv := (r.paths path).packetsRecv + 1 }.record false)
            samples :=
        log.congr rfl rfl rfl
      by_cases zero : call.2 = 0
      · rw [if_neg fun taken => taken.2.2 zero, List.append_nil, zero]
        exact counted.congr rfl rfl rfl
      · have taken : rttTaken path call :=
          ⟨own.symm, Nat.lt_of_not_le outside, zero⟩
        rw [if_pos taken]
        exact (counted.sampled zero small).congr rfl rfl rfl
    · rw [if_neg own, if_neg fun taken => own taken.1.symm, List.append_nil]
      exact log

theorem RttLog.init (path : Nat) :
    RttLog (resilienceInit.paths path) [] where
  fresh := fun _ => ⟨rfl, rfl, rfl⟩
  tracked := fun seen => absurd rfl seen
  positive := fun _ member => absurd member List.not_mem_nil
  bounded := fun _ member => absurd member List.not_mem_nil

theorem RttLog.run
    (path : Nat) (calls : List (Nat × UInt64))
    (small : ∀ call ∈ calls, call.2.toNat < 2 ^ 60) :
    RttLog ((calls.foldl rttStep resilienceInit).paths path)
      (rttSamples path calls) := by
  induction calls using List.reverseRecOn with
  | nil => exact RttLog.init path
  | append_singleton earlier call inductionHypothesis =>
      rw [List.foldl_concat, rttSamples_concat]
      have before :=
        inductionHypothesis fun other member =>
          small other (List.mem_append_left _ member)
      exact before.step call
        (small call (List.mem_append_right _ (List.mem_singleton_self call)))

end

/-- Of any calls with round trips below `2 ^ 60`, the least and the greatest
sample of a path are kept exactly, the estimate lies between them, and in no
call does the weighted sum leave 64 bits. -/
theorem rtt_estimate_in_range
    (calls : List (Nat × UInt64))
    (small : ∀ call ∈ calls, call.2.toNat < 2 ^ 60) :
    (∀ path,
      let p := (calls.foldl rttStep resilienceInit).paths path
      rttSamples path calls ≠ [] →
        IsLeast {sample | sample ∈ rttSamples path calls} p.rttMinNs.toNat ∧
          IsGreatest {sample | sample ∈ rttSamples path calls}
            p.rttMaxNs.toNat ∧
          p.rttMinNs ≤ p.rttNs ∧ p.rttNs ≤ p.rttMaxNs) ∧
      ∀ before call after, calls = before ++ call :: after →
        ((before.foldl rttStep resilienceInit).paths call.1).rttNs.toNat * 7 +
          call.2.toNat < 2 ^ 64 := by
  constructor
  · intro path p seen
    have tracked := (RttLog.run path calls small).tracked seen
    exact ⟨tracked.least, tracked.greatest,
      UInt64.le_iff_toNat_le.mpr tracked.above,
      UInt64.le_iff_toNat_le.mpr tracked.below⟩
  · intro before call after split
    have earlier : ∀ other ∈ before, other.2.toNat < 2 ^ 60 := by
      intro other member
      exact small other (split ▸ List.mem_append_left _ member)
    have last : call.2.toNat < 2 ^ 60 :=
      small call (split ▸ List.mem_append_right _ List.mem_cons_self)
    exact (RttLog.run call.1 before earlier).sum_lt last

/-- Two samples and a call without one: the mean of ten and two is nine. -/
theorem rtt_estimate_in_range_three_calls :
    IsLeast {sample | sample ∈ [10, 2]}
        ((([(0, 10), (0, 0), (0, 2)] : List (Nat × UInt64)).foldl
          rttStep resilienceInit).paths 0).rttMinNs.toNat ∧
      ((([(0, 10), (0, 0), (0, 2)] : List (Nat × UInt64)).foldl
        rttStep resilienceInit).paths 0).rttNs = 9 :=
  ⟨((rtt_estimate_in_range [(0, 10), (0, 0), (0, 2)] (by decide)).1 0
    (by decide)).1, by decide⟩

end PqComm
