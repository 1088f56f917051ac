import Mathlib.Data.List.Perm.Basic

/-!
# Watching for signs of life

A sender beats at least every `period`, and the network takes at most `delay`
for a beat that it does not lose.  A listener that has not missed more than
`k` beats in a row has heard one no longer than `(k + 1) * period + delay`
ago.
-/

namespace PqComm.Lib

/-- The time of the last beat, the time when the listener last heard
anything, and what has become of the beats since: how many were lost, and when
those were sent that are on their way. -/
structure Watch where
  sent : Nat
  heard : Nat
  lost : Nat
  flight : List Nat

namespace Watch

/-- The beats that went out within so many periods after the listener last
heard anything. -/
def within (w : Watch) (period count : Nat) : Nat :=
  w.flight.countP (· ≤ w.heard + count * period)

/-- In each period since the listener last heard anything a beat went out,
up to the last one; it is on its way or was lost. -/
def Covered (period : Nat) (w : Watch) : Prop :=
  ∀ n, w.heard + n * period < w.sent →
    n + 1 ≤ w.within period (n + 1) + w.lost

variable {w : Watch} {period now : Nat}

theorem within_mono {n m : Nat} (le : n ≤ m) :
    w.within period n ≤ w.within period m := by
  apply List.countP_mono_left
  intro time _ early
  have wider : n * period ≤ m * period :=
    Nat.mul_le_mul_right period le
  simp only [decide_eq_true_eq] at early ⊢
  omega

theorem Covered.send
    (covered : w.Covered period) (due : now ≤ w.sent + period) :
    { w with sent := now, flight := w.flight ++ [now] }.Covered period := by
  intro n later
  have split :
      { w with sent := now, flight := w.flight ++ [now] }.within period
          (n + 1) =
        w.within period (n + 1) +
          [now].countP (· ≤ w.heard + (n + 1) * period) :=
    List.countP_append
  dsimp only at later
  rw [split]
  dsimp only
  by_cases earlier : w.heard + n * period < w.sent
  · have old := covered n earlier
    omega
  · -- the new beat is the one of this period
    have next : (n + 1) * period = n * period + period :=
      Nat.succ_mul n period
    have inside : now ≤ w.heard + (n + 1) * period := by
      omega
    have counts : [now].countP (· ≤ w.heard + (n + 1) * period) = 1 := by
      simp [inside]
    rw [counts]
    cases n with
    | zero =>
        omega
    | succ n =>
        have before : w.heard + n * period < w.sent := by
          have previous : (n + 1) * period = n * period + period :=
            Nat.succ_mul n period
          omega
        have old := covered n before
        have more : w.within period (n + 1) ≤ w.within period (n + 1 + 1) :=
          within_mono (Nat.le_succ (n + 1))
        omega

/-- Whatever is heard starts the count again. -/
theorem Covered.of_heard (heard : w.sent ≤ w.heard) : w.Covered period := by
  intro n later
  omega

theorem Covered.lose
    (covered : w.Covered period) (i : Nat) :
    { w with
      lost := w.lost + 1
      flight := w.flight.eraseIdx i }.Covered period := by
  intro n later
  have old := covered n later
  have rest :
      w.within period (n + 1) ≤
        { w with
          lost := w.lost + 1
          flight := w.flight.eraseIdx i }.within period (n + 1) + 1 := by
    unfold within
    by_cases inside : i < w.flight.length
    · have parts := List.getElem_cons_eraseIdx_perm inside
      rw [← parts.countP_eq, List.countP_cons]
      dsimp only
      split
      · exact Nat.le_refl _
      · omega
    · dsimp only
      rw [List.eraseIdx_of_length_le (Nat.le_of_not_lt inside)]
      exact Nat.le_succ _
  dsimp only at later ⊢
  omega

/-- How long the listener can have heard nothing. -/
theorem Covered.silence
    (covered : w.Covered period) {k delay : Nat} (few : w.lost ≤ k)
    (due : now ≤ w.sent + period)
    (timely : ∀ time ∈ w.flight, now ≤ time + delay) :
    now ≤ w.heard + (k + 1) * period + delay := by
  have next : (k + 1) * period = k * period + period :=
    Nat.succ_mul k period
  by_cases beaten : w.heard + k * period < w.sent
  · have beats := covered k beaten
    have some : 0 < w.within period (k + 1) := by
      omega
    rcases List.countP_pos_iff.mp some with ⟨time, member, early⟩
    have arrives := timely time member
    rw [decide_eq_true_eq] at early
    omega
  · omega

end Watch

end PqComm.Lib
