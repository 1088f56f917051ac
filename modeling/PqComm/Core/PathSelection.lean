import PqComm.Core.Resilience

/-!
# The path that is selected

`resilience_select_path` begins with `active_path`, whose state it does not
look at, and moves on to any active path with less loss.
-/

namespace PqComm

/-- One turn of the loop of `resilience_select_path`. -/
def Resilience.betterPath (r : Resilience) (best i : Nat) : Nat :=
  if (r.paths i).state = .active ∧
      (r.paths i).lossRate < (r.paths best).lossRate then i else best

/-- What the loop has found among `seen` when it began with `first`: the first
path itself, or an active one with less loss; and none of them is better. -/
structure Selected (r : Resilience) (first : Nat) (seen : List Nat)
    (best : Nat) : Prop where
  origin :
    best = first ∨
      best ∈ seen ∧ (r.paths best).state = .active ∧
        (r.paths best).lossRate < (r.paths first).lossRate
  best :
    ∀ i ∈ seen, (r.paths i).state = .active →
      (r.paths best).lossRate ≤ (r.paths i).lossRate

section

variable {r : Resilience} {first best : Nat} {seen : List Nat}

theorem Selected.lossRate_le (selected : Selected r first seen best) :
    (r.paths best).lossRate ≤ (r.paths first).lossRate := by
  rcases selected.origin with rfl | ⟨-, -, less⟩
  · exact Nat.le_refl _
  · exact Nat.le_of_lt less

theorem Selected.step (selected : Selected r first seen best) (i : Nat) :
    Selected r first (seen ++ [i]) (r.betterPath best i) := by
  unfold Resilience.betterPath
  split
  · rename_i better
    obtain ⟨active, less⟩ := better
    constructor
    · exact Or.inr ⟨by simp, active,
        Nat.lt_of_lt_of_le less selected.lossRate_le⟩
    · intro j member up
      rcases List.mem_append.mp member with before | now
      · exact Nat.le_trans (Nat.le_of_lt less) (selected.best j before up)
      · rw [List.mem_singleton] at now
        subst now
        exact Nat.le_refl _
  · rename_i worse
    constructor
    · rcases selected.origin with same | ⟨member, found⟩
      · exact Or.inl same
      · exact Or.inr ⟨List.mem_append_left _ member, found⟩
    · intro j member up
      rcases List.mem_append.mp member with before | now
      · exact selected.best j before up
      · rw [List.mem_singleton] at now
        subst now
        exact Nat.not_lt.mp fun less => worse ⟨up, less⟩

theorem Selected.run
    (selected : Selected r first seen best) (later : List Nat) :
    Selected r first (seen ++ later) (later.foldl r.betterPath best) := by
  induction later generalizing seen best with
  | nil =>
      rw [List.append_nil]
      exact selected
  | cons i rest inductionHypothesis =>
      have next := inductionHypothesis (selected.step i)
      rw [List.append_assoc] at next
      exact next

/-- What the function selects with several paths. -/
theorem resilienceSelectPath_selected
    (several : r.multipathEnabled = true) (some : 0 < r.pathCount) :
    Selected r r.activePath (List.range r.pathCount)
      (resilienceSelectPath r) := by
  have loop :
      resilienceSelectPath r =
        (List.range r.pathCount).foldl r.betterPath r.activePath := by
    unfold resilienceSelectPath
    rw [if_neg (Nat.ne_of_gt some), if_neg (by simp [several])]
    rfl
  have start : Selected r r.activePath [] r.activePath :=
    ⟨Or.inl rfl, List.forall_mem_nil _⟩
  rw [loop]
  exact start.run _

/-- An active path with the least loss of all active paths. -/
def Resilience.BestPath (r : Resilience) (i : Nat) : Prop :=
  i < r.pathCount ∧ (r.paths i).state = .active ∧
    ∀ j, j < r.pathCount → (r.paths j).state = .active →
      (r.paths i).lossRate ≤ (r.paths j).lossRate

/-- The selected path is the best one exactly when `active_path` is itself an
active path or some active path has less loss than it. -/
theorem resilienceSelectPath_best_iff
    (several : r.multipathEnabled = true)
    (some : ∃ i, i < r.pathCount ∧ (r.paths i).state = .active) :
    r.BestPath (resilienceSelectPath r) ↔
      (r.activePath < r.pathCount ∧
          (r.paths r.activePath).state = .active) ∨
        ∃ i, i < r.pathCount ∧ (r.paths i).state = .active ∧
          (r.paths i).lossRate < (r.paths r.activePath).lossRate := by
  obtain ⟨up, below, -⟩ := some
  have selected :=
    resilienceSelectPath_selected several (Nat.zero_lt_of_lt below)
  have least (j : Nat) (inside : j < r.pathCount)
      (active : (r.paths j).state = .active) :
      (r.paths (resilienceSelectPath r)).lossRate ≤ (r.paths j).lossRate :=
    selected.best j (List.mem_range.mpr inside) active
  constructor
  · rintro ⟨inside, active, -⟩
    rcases selected.origin with same | ⟨-, -, less⟩
    · rw [same] at inside active
      exact Or.inl ⟨inside, active⟩
    · exact Or.inr ⟨_, inside, active, less⟩
  · intro found
    rcases selected.origin with same | ⟨member, active, -⟩
    · rcases found with ⟨inside, active⟩ | ⟨i, inside, active, less⟩
      · rw [← same] at inside active
        exact ⟨inside, active, least⟩
      · have bound := least i inside active
        rw [same] at bound
        exact absurd bound (Nat.not_le.mpr less)
    · exact ⟨List.mem_range.mp member, active, least⟩

end

/-- Path 0 is selected and has the given state; path 1 is active.  Neither has
lost anything. -/
def samplePaths (state : PathState) : Resilience :=
  { resilienceInit with
    multipathEnabled := true
    pathCount := 2
    paths := fun i =>
      if i = 0 then { state := state } else { state := .active } }

theorem resilienceSelectPath_best_iff_sample :
    (samplePaths .active).BestPath
      (resilienceSelectPath (samplePaths .active)) :=
  (resilienceSelectPath_best_iff rfl ⟨0, by decide, rfl⟩).mpr
    (Or.inl ⟨by decide, rfl⟩)

/-- Path 1 is active and path 0, which is down, is selected. -/
theorem resilienceSelectPath_down :
    (samplePaths .down).multipathEnabled = true ∧
      (∃ i, i < (samplePaths .down).pathCount ∧
        ((samplePaths .down).paths i).state = .active) ∧
      ¬ (samplePaths .down).BestPath
        (resilienceSelectPath (samplePaths .down)) := by
  have chosen : resilienceSelectPath (samplePaths .down) = 0 := by
    decide
  refine ⟨rfl, ⟨1, by decide, rfl⟩, ?_⟩
  rw [chosen]
  rintro ⟨-, active, -⟩
  cases active

end PqComm
