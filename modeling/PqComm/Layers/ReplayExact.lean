import PqComm.Layers.Replay

/-!
# The replay window is exact

Starting from an empty window, `seq_check_bitmap` refuses no more than it has
to: its verdicts on any sequence of numbers are those of `replaySpec`, which
remembers everything it has accepted.
-/

namespace PqComm

open Lib

/-- What the window is for.  With the numbers accepted so far, the next one is
accepted when it is not zero and is the first, or larger than all of them, or
less than a window below the largest and new. -/
def replayAccepts (accepted : List UInt32) (seq : UInt32) : Prop :=
  let largest := (accepted.map UInt32.toNat).foldr max 0
  seq ≠ 0 ∧
    (accepted = [] ∨ largest < seq.toNat ∨
      (largest - seq.toNat < replayWindowSize ∧ seq ∉ accepted))

instance (accepted : List UInt32) (seq : UInt32) :
    Decidable (replayAccepts accepted seq) :=
  inferInstanceAs (Decidable (_ ∧ _))

/-- The verdicts of the specification. -/
def replaySpec (accepted : List UInt32) : List UInt32 → List Bool
  | [] => []
  | seq :: rest =>
      if replayAccepts accepted seq then
        true :: replaySpec (seq :: accepted) rest
      else
        false :: replaySpec accepted rest

/-- The verdicts of `seq_check_bitmap` on one window. -/
def replayVerdicts (lastSeq : UInt32) (bitmap : UInt64) :
    List UInt32 → List Bool
  | [] => []
  | seq :: rest =>
      let checked := seqCheckBitmap seq lastSeq bitmap
      checked.1 :: replayVerdicts checked.2.1 checked.2.2 rest

/-- A window that has a largest number has it marked. -/
def WindowRooted (lastSeq : UInt32) (bitmap : UInt64) : Prop :=
  lastSeq ≠ 0 → bitmap.toNat.testBit 0 = true

/-! ## Bits of the bitmap -/

theorem testBit_below
    {diff : UInt32} (near : diff.toNat < replayWindowSize) (bitmap : UInt64)
    {i : Nat} (below : i < diff.toNat) :
    (bitmap <<< diff.toUInt64).toNat.testBit i = false := by
  have shift : diff.toNat % 64 = diff.toNat := Nat.mod_eq_of_lt near
  rw [UInt64.toNat_shiftLeft, UInt32.toNat_toUInt64, shift,
    Nat.testBit_mod_two_pow, Nat.testBit_shiftLeft]
  simp [Nat.not_le.mpr below]

theorem testBit_one_uint64 (i : Nat) :
    (1 : UInt64).toNat.testBit i = decide (i = 0) := by
  rw [UInt64.toNat_one, ← Nat.pow_zero 2, Nat.testBit_two_pow]
  simp [eq_comm]

/-- The bits of a bitmap that was moved to a larger number. -/
theorem testBit_moved
    (diff : UInt32) (bitmap : UInt64) {i : Nat}
    (inside : i < replayWindowSize) :
    ((if diff.toNat ≥ replayWindowSize then 0
        else bitmap <<< diff.toUInt64) ||| 1).toNat.testBit i = true ↔
      i = 0 ∨
        (diff.toNat ≤ i ∧ bitmap.toNat.testBit (i - diff.toNat) = true) := by
  have low := testBit_one_uint64 i
  rw [UInt64.toNat_or, Nat.testBit_or, low, Bool.or_eq_true, or_comm,
    decide_eq_true_iff]
  refine or_congr_right ?_
  by_cases far : diff.toNat ≥ replayWindowSize
  · rw [if_pos far]
    constructor
    · intro marked
      simp at marked
    · rintro ⟨reached, -⟩
      omega
  · rw [if_neg far]
    have near : diff.toNat < replayWindowSize := Nat.lt_of_not_le far
    by_cases below : i < diff.toNat
    · rw [testBit_below near bitmap below]
      constructor
      · intro marked
        cases marked
      · rintro ⟨reached, -⟩
        omega
    · have split : i - diff.toNat + diff.toNat = i := by
        omega
      have moved := testBit_shifted near bitmap (i := i - diff.toNat)
        (by omega)
      rw [split] at moved
      rw [moved]
      exact ⟨fun marked => ⟨by omega, marked⟩, fun both => both.2⟩

theorem mask_clear_iff {bitmap mask : UInt64} {offset : Nat}
    (maskBits : ∀ i, mask.toNat.testBit i = decide (i = offset)) :
    bitmap &&& mask = 0 ↔ bitmap.toNat.testBit offset = false := by
  refine ⟨mask_meets maskBits, fun unset => ?_⟩
  apply UInt64.toNat_inj.mp
  apply Nat.eq_of_testBit_eq
  intro i
  rw [UInt64.toNat_and, Nat.testBit_and, maskBits, UInt64.toNat_zero,
    Nat.zero_testBit]
  by_cases same : i = offset
  · rw [same, unset, Bool.false_and]
  · rw [decide_eq_false same, Bool.and_false]

/-! ## One number -/

/-- A number above the window moves it and marks nothing else. -/
theorem marks_above
    {seq lastSeq : UInt32} (started : lastSeq ≠ 0) (above : lastSeq < seq)
    (bitmap : UInt64) :
    Window.Marks replayWindowSize (replayWindow lastSeq bitmap) seq.toNat
      (replayWindow seq
        ((if (seq - lastSeq).toNat ≥ replayWindowSize then 0
          else bitmap <<< (seq - lastSeq).toUInt64) ||| 1)) := by
  have larger : lastSeq.toNat < seq.toNat := UInt32.lt_iff_toNat_lt.mp above
  have diff : (seq - lastSeq).toNat = seq.toNat - lastSeq.toNat :=
    UInt32.toNat_sub_of_le _ _ (UInt32.le_of_lt above)
  have positive : seq ≠ 0 := by
    rintro rfl
    simp at larger
  refine ⟨(Nat.max_eq_right (Nat.le_of_lt larger)).symm,
    fun m below near => ?_⟩
  dsimp only [replayWindow] at below near ⊢
  rw [testBit_moved (seq - lastSeq) bitmap near, diff]
  constructor
  · rintro ⟨-, last | ⟨reached, marked⟩⟩
    · exact Or.inl (by omega)
    · have same :
          seq.toNat - m - (seq.toNat - lastSeq.toNat) =
            lastSeq.toNat - m := by
        omega
      rw [same] at marked
      exact Or.inr ⟨by omega, started, marked⟩
  · rintro (last | ⟨reached, -, marked⟩)
    · exact ⟨positive, Or.inl (by omega)⟩
    · have same :
          seq.toNat - m - (seq.toNat - lastSeq.toNat) =
            lastSeq.toNat - m := by
        omega
      refine ⟨positive, Or.inr ⟨by omega, ?_⟩⟩
      rw [same]
      exact marked

/-- The first number is all that is marked. -/
theorem marks_first
    {seq : UInt32} (positive : seq ≠ 0) (bitmap : UInt64) :
    Window.Marks replayWindowSize (replayWindow 0 bitmap) seq.toNat
      (replayWindow seq 1) := by
  refine ⟨(Nat.max_eq_right (Nat.zero_le _)).symm, fun m below near => ?_⟩
  dsimp only [replayWindow] at below near ⊢
  rw [testBit_one_uint64, decide_eq_true_iff]
  constructor
  · rintro ⟨-, same⟩
    exact Or.inl (by omega)
  · rintro (same | ⟨-, empty, -⟩)
    · exact ⟨positive, by omega⟩
    · exact absurd rfl empty

/-- A number inside the window sets its bit and nothing else. -/
theorem marks_inside
    {seq lastSeq : UInt32} (started : lastSeq ≠ 0) (below : seq ≤ lastSeq)
    (near : (lastSeq - seq).toNat < replayWindowSize) (bitmap : UInt64) :
    Window.Marks replayWindowSize (replayWindow lastSeq bitmap) seq.toNat
      (replayWindow lastSeq
        (bitmap ||| (1 : UInt64) <<< (lastSeq - seq).toUInt64)) := by
  have offset : (lastSeq - seq).toNat = lastSeq.toNat - seq.toNat :=
    UInt32.toNat_sub_of_le _ _ below
  have smaller : seq.toNat ≤ lastSeq.toNat := UInt32.le_iff_toNat_le.mp below
  refine ⟨(Nat.max_eq_left smaller).symm, fun m inside close => ?_⟩
  dsimp only [replayWindow] at inside close ⊢
  rw [UInt64.toNat_or, Nat.testBit_or, testBit_mask near, Bool.or_eq_true,
    decide_eq_true_iff, offset]
  constructor
  · rintro ⟨-, marked | same⟩
    · exact Or.inr ⟨inside, started, marked⟩
    · exact Or.inl (by omega)
  · rintro (same | ⟨-, -, marked⟩)
    · exact ⟨started, Or.inr (by omega)⟩
    · exact ⟨started, Or.inl marked⟩

/-- What one call of `seq_check_bitmap` does to a window. -/
structure ChecksExactly (seq lastSeq : UInt32) (bitmap : UInt64)
    (checked : Bool × UInt32 × UInt64) : Prop where
  verdict :
    checked.1 = true ↔
      seq ≠ 0 ∧
        Window.Fresh replayWindowSize (replayWindow lastSeq bitmap) seq.toNat
  accepted :
    checked.1 = true →
      Window.Marks replayWindowSize (replayWindow lastSeq bitmap) seq.toNat
        (replayWindow checked.2.1 checked.2.2)
  refused : checked.1 = false → checked.2 = (lastSeq, bitmap)
  rooted : WindowRooted checked.2.1 checked.2.2

/-- A number at or below the largest one: too far back, marked already, or
marked now. -/
theorem seqCheckBitmap_below
    {seq lastSeq : UInt32} {bitmap : UInt64}
    (rooted : WindowRooted lastSeq bitmap) (zero : seq ≠ 0)
    (started : lastSeq ≠ 0) (below : seq ≤ lastSeq) :
    ChecksExactly seq lastSeq bitmap (seqCheckBitmap seq lastSeq bitmap) := by
  have smaller : seq.toNat ≤ lastSeq.toNat := UInt32.le_iff_toNat_le.mp below
  have offset : (lastSeq - seq).toNat = lastSeq.toNat - seq.toNat :=
    UInt32.toNat_sub_of_le _ _ below
  unfold seqCheckBitmap
  rw [if_neg zero, if_neg started, if_neg (UInt32.not_lt.mpr below)]
  dsimp only
  by_cases far : (lastSeq - seq).toNat ≥ replayWindowSize
  · rw [if_pos far]
    refine ⟨⟨nofun, ?_⟩, nofun, fun _ => rfl, rooted⟩
    rintro ⟨-, larger | ⟨-, near, -⟩⟩
    · exact absurd larger (Nat.not_lt.mpr smaller)
    · dsimp only [replayWindow] at near
      omega
  rw [if_neg far]
  have near : (lastSeq - seq).toNat < replayWindowSize :=
    Nat.lt_of_not_le far
  -- The window's own number is marked, so its bitmap is not zero.
  have marked : bitmap ≠ 0 := by
    rintro rfl
    exact absurd (rooted started) (by decide)
  rw [if_neg marked]
  have maskBits := testBit_mask near
  by_cases occupied :
      bitmap &&& (1 : UInt64) <<< (lastSeq - seq).toUInt64 ≠ 0
  · rw [if_pos occupied]
    rw [ne_eq, mask_clear_iff maskBits, Bool.not_eq_false, offset] at occupied
    refine ⟨⟨nofun, ?_⟩, nofun, fun _ => rfl, rooted⟩
    rintro ⟨-, larger | ⟨-, -, unmarked⟩⟩
    · exact absurd larger (Nat.not_lt.mpr smaller)
    · exact absurd ⟨started, occupied⟩ unmarked
  · rw [if_neg occupied]
    rw [not_not, mask_clear_iff maskBits, offset] at occupied
    refine ⟨⟨fun _ => ⟨zero, Or.inr ⟨smaller, ?_, ?_⟩⟩, fun _ => rfl⟩,
      fun _ => marks_inside started below near bitmap, nofun, fun _ => ?_⟩
    · dsimp only [replayWindow]
      omega
    · rintro ⟨-, set⟩
      exact Bool.false_ne_true (occupied.symm.trans set)
    · rw [UInt64.toNat_or, Nat.testBit_or, rooted started, Bool.true_or]

theorem seqCheckBitmap_exact
    {lastSeq : UInt32} {bitmap : UInt64}
    (rooted : WindowRooted lastSeq bitmap) (seq : UInt32) :
    ChecksExactly seq lastSeq bitmap (seqCheckBitmap seq lastSeq bitmap) := by
  by_cases below : seq ≠ 0 ∧ lastSeq ≠ 0 ∧ seq ≤ lastSeq
  · obtain ⟨zero, started, below⟩ := below
    exact seqCheckBitmap_below rooted zero started below
  unfold seqCheckBitmap
  by_cases zero : seq = 0
  · rw [if_pos zero]
    exact ⟨⟨nofun, fun both => absurd zero both.1⟩, nofun, fun _ => rfl,
      rooted⟩
  rw [if_neg zero]
  by_cases empty : lastSeq = 0
  · rw [if_pos empty, empty]
    have above : 0 < seq.toNat := by
      have nonzero : seq.toNat ≠ 0 := fun none =>
        zero (UInt32.toNat_inj.mp none)
      omega
    exact ⟨⟨fun _ => ⟨zero, Or.inl above⟩, fun _ => rfl⟩,
      fun _ => marks_first zero bitmap, nofun,
      fun _ => testBit_one_uint64 0⟩
  have above : seq > lastSeq :=
    UInt32.not_le.mp fun le => below ⟨zero, empty, le⟩
  have larger : lastSeq.toNat < seq.toNat := UInt32.lt_iff_toNat_lt.mp above
  rw [if_neg empty, if_pos above]
  refine ⟨⟨fun _ => ⟨zero, Or.inl larger⟩, fun _ => rfl⟩,
    fun _ => marks_above empty above bitmap, nofun, fun _ => ?_⟩
  rw [UInt64.toNat_or, Nat.testBit_or, testBit_one_uint64]
  simp

/-! ## Sequences -/

/-- The window knows the numbers that were accepted. -/
structure ReplayKnows (accepted : List UInt32) (lastSeq : UInt32)
    (bitmap : UInt64) : Prop where
  largest : lastSeq.toNat = (accepted.map UInt32.toNat).foldr max 0
  rooted : WindowRooted lastSeq bitmap
  taken :
    Window.Exact replayWindowSize (replayWindow lastSeq bitmap)
      fun n => ∃ seq ∈ accepted, seq.toNat = n

section

variable {accepted : List UInt32} {lastSeq : UInt32} {bitmap : UInt64}

theorem replayKnows_empty : ReplayKnows [] 0 0 where
  largest := rfl
  rooted := fun started => absurd rfl started
  taken :=
    { reaches := by
        rintro n ⟨seq, member, -⟩
        cases member
      seen := by
        intro n _ _
        constructor
        · rintro ⟨started, -⟩
          exact absurd rfl started
        · rintro ⟨seq, member, -⟩
          cases member }

theorem ReplayKnows.verdict
    (knows : ReplayKnows accepted lastSeq bitmap) (seq : UInt32) :
    (seqCheckBitmap seq lastSeq bitmap).1 = true ↔
      replayAccepts accepted seq := by
  have member : (∃ other ∈ accepted, other.toNat = seq.toNat) ↔
      seq ∈ accepted := by
    simp only [UInt32.toNat_inj, exists_eq_right]
  rw [(seqCheckBitmap_exact knows.rooted seq).verdict,
    knows.taken.fresh_iff, member]
  change seq ≠ 0 ∧ (lastSeq.toNat < seq.toNat ∨
    seq.toNat ≤ lastSeq.toNat ∧ lastSeq.toNat - seq.toNat < replayWindowSize ∧
      seq ∉ accepted) ↔ _
  rw [knows.largest]
  refine and_congr_right fun positive => ⟨?_, ?_⟩
  · rintro (above | ⟨-, near, fresh⟩)
    · exact Or.inr (Or.inl above)
    · exact Or.inr (Or.inr ⟨near, fresh⟩)
  · rintro (none | above | ⟨near, fresh⟩)
    · left
      rw [none]
      have nonzero : seq.toNat ≠ 0 := fun zero =>
        positive (UInt32.toNat_inj.mp zero)
      exact Nat.pos_of_ne_zero nonzero
    · exact Or.inl above
    · rcases Nat.lt_or_ge ((accepted.map UInt32.toNat).foldr max 0)
        seq.toNat with above | below
      · exact Or.inl above
      · exact Or.inr ⟨below, near, fresh⟩

theorem ReplayKnows.accept
    (knows : ReplayKnows accepted lastSeq bitmap) {seq : UInt32}
    (accepts : (seqCheckBitmap seq lastSeq bitmap).1 = true) :
    ReplayKnows (seq :: accepted) (seqCheckBitmap seq lastSeq bitmap).2.1
      (seqCheckBitmap seq lastSeq bitmap).2.2 := by
  have exactly := seqCheckBitmap_exact knows.rooted seq
  have marks := exactly.accepted accepts
  refine ⟨?_, exactly.rooted, ?_⟩
  · have last := marks.last
    dsimp only [replayWindow] at last
    rw [last, knows.largest, List.map_cons, List.foldr_cons, Nat.max_comm]
  · have taken := knows.taken.mark marks
    have same :
        (fun n => n = seq.toNat ∨ ∃ other ∈ accepted, other.toNat = n) =
          fun n => ∃ other ∈ seq :: accepted, other.toNat = n := by
      funext n
      rw [eq_comm (a := n)]
      simp only [List.mem_cons, exists_eq_or_imp]
    rw [← same]
    exact taken

/-- The verdicts of a window that knows what was accepted. -/
theorem ReplayKnows.verdicts
    (knows : ReplayKnows accepted lastSeq bitmap) (seqs : List UInt32) :
    replayVerdicts lastSeq bitmap seqs = replaySpec accepted seqs := by
  induction seqs generalizing accepted lastSeq bitmap with
  | nil =>
      rfl
  | cons seq rest inductionHypothesis =>
      have verdict := knows.verdict seq
      rw [replayVerdicts, replaySpec]
      cases answer : (seqCheckBitmap seq lastSeq bitmap).1 with
      | true =>
          rw [if_pos (verdict.mp answer),
            inductionHypothesis (knows.accept answer)]
      | false =>
          have refuses : ¬replayAccepts accepted seq := fun accepts =>
            Bool.false_ne_true (answer.symm.trans (verdict.mpr accepts))
          have unchanged :=
            (seqCheckBitmap_exact knows.rooted seq).refused answer
          rw [if_neg refuses, unchanged]
          exact congrArg _ (inductionHypothesis knows)

end

/-- On every sequence of numbers the replay window answers as its
specification does. -/
theorem replayVerdicts_eq_spec (seqs : List UInt32) :
    replayVerdicts 0 0 seqs = replaySpec [] seqs :=
  replayKnows_empty.verdicts seqs

/-- A jump, a number 63 below the largest, a repeated one and one 64 below. -/
example :
    replayVerdicts 0 0 [0, 100, 37, 37, 36, 164, 100] =
      [false, true, true, false, false, true, false] := by
  decide

end PqComm
