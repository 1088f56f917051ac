import PqComm.Layers.Gate
import PqComm.Lib.SlidingWindow

/-!
# The replay window refines a sliding window

`seq_check` keeps a number and a bitmap for the session and for each path.
Read as windows of width `REPLAY_WINDOW_SIZE`, whatever it accepts was fresh
and is marked afterwards, and whatever it refuses loses no mark.
-/

namespace PqComm

open Lib

/-- The window that a `last_seq` and a `recv_bitmap` stand for.  No number has
been taken while `last_seq` is zero, whatever the bitmap holds. -/
def replayWindow (lastSeq : UInt32) (bitmap : UInt64) : Window where
  last := lastSeq.toNat
  seen := fun distance =>
    lastSeq ≠ 0 ∧ bitmap.toNat.testBit distance = true

/-- The windows of a session: its own, and one for each path. -/
def Session.windows (s : Session) : Option Nat → Window
  | none => replayWindow s.lastSeq s.recvBitmap
  | some i =>
      replayWindow (s.resilience.paths i).lastSeq
        (s.resilience.paths i).recvBitmap

/-- The window `seq_check` consults for a path index. -/
def windowOf (s : Session) (pathIdx : Nat) : Option Nat :=
  if s.resilience.multipathEnabled ∧ pathIdx < s.resilience.pathCount then
    some pathIdx
  else
    none

/-! ## Bits of the bitmap -/

theorem testBit_mask {offset : UInt32}
    (near : offset.toNat < replayWindowSize) (i : Nat) :
    ((1 : UInt64) <<< offset.toUInt64).toNat.testBit i =
      decide (i = offset.toNat) := by
  have below : offset.toNat < 64 := near
  have shift : offset.toNat % 64 = offset.toNat := Nat.mod_eq_of_lt below
  have small : 2 ^ offset.toNat < 2 ^ 64 :=
    Nat.pow_lt_pow_right (by decide) below
  rw [UInt64.toNat_shiftLeft, UInt32.toNat_toUInt64, shift]
  simp only [UInt64.toNat_one, Nat.one_shiftLeft]
  rw [Nat.mod_eq_of_lt small, Nat.testBit_two_pow]
  simp [eq_comm]

theorem testBit_shifted
    {diff : UInt32} (near : diff.toNat < replayWindowSize) (bitmap : UInt64)
    {i : Nat} (inside : i + diff.toNat < replayWindowSize) :
    (bitmap <<< diff.toUInt64).toNat.testBit (i + diff.toNat) =
      bitmap.toNat.testBit i := by
  have shift : diff.toNat % 64 = diff.toNat := Nat.mod_eq_of_lt near
  rw [UInt64.toNat_shiftLeft, UInt32.toNat_toUInt64, shift,
    Nat.testBit_mod_two_pow, Nat.testBit_shiftLeft]
  have below : i + diff.toNat < 64 := inside
  simp [below]

theorem mask_meets {bitmap mask : UInt64} {offset : Nat}
    (maskBits : ∀ i, mask.toNat.testBit i = decide (i = offset))
    (clear : bitmap &&& mask = 0) : bitmap.toNat.testBit offset = false := by
  have bits : (bitmap &&& mask).toNat.testBit offset = false := by
    rw [clear]
    simp
  simpa [UInt64.toNat_and, Nat.testBit_and, maskBits] using bits

/-! ## One window -/

/-- The first number of an empty window. -/
private theorem takes_first
    {seq : UInt32} (bitmap : UInt64) (positive : seq ≠ 0) :
    Window.Fresh replayWindowSize (replayWindow 0 bitmap) seq.toNat ∧
      Window.Takes replayWindowSize (replayWindow 0 bitmap) seq.toNat
        (replayWindow seq 1) := by
  have above : 0 < seq.toNat := by
    have nonzero : seq.toNat ≠ 0 := fun zero =>
      positive (UInt32.toNat_inj.mp zero)
    omega
  refine ⟨Or.inl above, ?_⟩
  exact
    { last := Nat.zero_le _
      seen := fun distance marked => absurd rfl marked.1
      reaches := Nat.le_refl _
      marked := fun _ => ⟨positive, by simp [replayWindow]⟩ }

/-- A number above the window shifts it. -/
private theorem takes_above
    {seq lastSeq : UInt32} {bitmap shifted : UInt64}
    (above : lastSeq < seq)
    (bits : ∀ distance, bitmap.toNat.testBit distance = true →
      distance + (seq.toNat - lastSeq.toNat) < replayWindowSize →
        shifted.toNat.testBit (distance + (seq.toNat - lastSeq.toNat)) =
          true) :
    Window.Fresh replayWindowSize (replayWindow lastSeq bitmap) seq.toNat ∧
      Window.Takes replayWindowSize (replayWindow lastSeq bitmap) seq.toNat
        (replayWindow seq (shifted ||| 1)) := by
  have larger : lastSeq.toNat < seq.toNat := UInt32.lt_iff_toNat_lt.mp above
  have positive : seq ≠ 0 := by
    rintro rfl
    simp at larger
  refine ⟨Or.inl larger, ?_⟩
  exact
    { last := Nat.le_of_lt larger
      seen := by
        rintro distance ⟨_, marked⟩ near
        refine ⟨positive, ?_⟩
        simp only [UInt64.toNat_or, Nat.testBit_or, Bool.or_eq_true]
        exact Or.inl (bits distance marked near)
      reaches := Nat.le_refl _
      marked := fun _ => ⟨positive, by simp [replayWindow]⟩ }

/-- A number inside the window sets its bit. -/
private theorem takes_inside
    {seq lastSeq : UInt32} {bitmap current mask : UInt64}
    (started : lastSeq ≠ 0) (below : seq ≤ lastSeq)
    (near : (lastSeq - seq).toNat < replayWindowSize)
    (maskBits :
      ∀ i, mask.toNat.testBit i = decide (i = (lastSeq - seq).toNat))
    (grown : ∀ i, bitmap.toNat.testBit i = true →
      current.toNat.testBit i = true)
    (clear : current &&& mask = 0) :
    Window.Fresh replayWindowSize (replayWindow lastSeq bitmap) seq.toNat ∧
      Window.Takes replayWindowSize (replayWindow lastSeq bitmap) seq.toNat
        (replayWindow lastSeq (current ||| mask)) := by
  have offset : (lastSeq - seq).toNat = lastSeq.toNat - seq.toNat :=
    UInt32.toNat_sub_of_le _ _ below
  have smaller : seq.toNat ≤ lastSeq.toNat := UInt32.le_iff_toNat_le.mp below
  have unset := mask_meets maskBits clear
  rw [offset] at near maskBits unset
  constructor
  · refine Or.inr ⟨smaller, near, fun marked => ?_⟩
    have set := grown _ marked.2
    exact Bool.false_ne_true (unset.symm.trans set)
  · exact
      { last := Nat.le_refl _
        seen := by
          rintro distance ⟨_, marked⟩ _
          refine ⟨started, ?_⟩
          simp only [replayWindow, Nat.sub_self, Nat.add_zero,
            UInt64.toNat_or, Nat.testBit_or, Bool.or_eq_true]
          exact Or.inl (grown distance marked)
        reaches := smaller
        marked := by
          intro _
          refine ⟨started, ?_⟩
          simp [replayWindow, maskBits] }

private theorem testBit_nonzero (bitmap : UInt64) (i : Nat)
    (marked : bitmap.toNat.testBit i = true) :
    (if bitmap = 0 then 1 else bitmap).toNat.testBit i = true := by
  by_cases zero : bitmap = 0
  · simp [zero] at marked
  · simpa [zero] using marked

/-- What is accepted was fresh and is marked afterwards; what is refused costs
no mark. -/
theorem seqCheckBitmap_refines
    (seq lastSeq : UInt32) (bitmap : UInt64) :
    let window := replayWindow lastSeq bitmap
    let checked := seqCheckBitmap seq lastSeq bitmap
    let window' := replayWindow checked.2.1 checked.2.2
    if checked.1 then
      Window.Fresh replayWindowSize window seq.toNat ∧
        Window.Takes replayWindowSize window seq.toNat window'
    else
      Window.Keeps replayWindowSize window window' := by
  unfold seqCheckBitmap
  by_cases zero : seq = 0
  · simpa [zero] using Window.Keeps.refl _
  rw [if_neg zero]
  by_cases empty : lastSeq = 0
  · subst empty
    exact takes_first bitmap zero
  rw [if_neg empty]
  by_cases above : seq > lastSeq
  · rw [if_pos above]
    have diff : (seq - lastSeq).toNat = seq.toNat - lastSeq.toNat :=
      UInt32.toNat_sub_of_le _ _ (UInt32.le_of_lt above)
    refine takes_above above fun distance marked inside => ?_
    rw [← diff] at inside ⊢
    have near : (seq - lastSeq).toNat < replayWindowSize := by
      omega
    rw [if_neg (by omega), testBit_shifted near bitmap inside]
    exact marked
  rw [if_neg above]
  have below : seq ≤ lastSeq := UInt32.not_lt.mp above
  dsimp only
  by_cases far : (lastSeq - seq).toNat ≥ replayWindowSize
  · rw [if_pos far]
    exact Window.Keeps.refl _
  rw [if_neg far]
  have near : (lastSeq - seq).toNat < replayWindowSize := by
    omega
  by_cases occupied :
      (if bitmap = 0 then 1 else bitmap) &&&
        (1 : UInt64) <<< (lastSeq - seq).toUInt64 ≠ 0
  · -- At most a zero bitmap has become one.
    rw [if_pos occupied]
    refine ⟨Nat.le_refl _, ?_⟩
    rintro distance ⟨_, marked⟩ _
    refine ⟨empty, ?_⟩
    simpa [replayWindow] using testBit_nonzero bitmap distance marked
  · rw [if_neg occupied]
    exact takes_inside empty below near (testBit_mask near)
      (testBit_nonzero bitmap) (not_not.mp occupied)

/-! ## All windows of a session -/

/-- The step of one window, seen in a table where the other windows stay. -/
private theorem admits_of_refines
    {table table' : Option Nat → Window} {i : Option Nat}
    {seq lastSeq : UInt32} {bitmap : UInt64}
    (before : table i = replayWindow lastSeq bitmap)
    (after :
      table' i =
        replayWindow (seqCheckBitmap seq lastSeq bitmap).2.1
          (seqCheckBitmap seq lastSeq bitmap).2.2)
    (others : ∀ j, j ≠ i → table' j = table j) :
    Admits replayWindowSize table
      (if (seqCheckBitmap seq lastSeq bitmap).1 then [(i, seq.toNat)] else [])
      table' := by
  have refines := seqCheckBitmap_refines seq lastSeq bitmap
  dsimp only at refines
  rw [← before, ← after] at refines
  have elsewhere : ∀ j, j ≠ i →
      Window.Keeps replayWindowSize (table j) (table' j) := by
    intro j different
    rw [others j different]
    exact Window.Keeps.refl _
  cases verdict : (seqCheckBitmap seq lastSeq bitmap).1 with
  | true =>
      simp only [verdict, if_true] at refines ⊢
      refine Admits.cons refines.1 refines.2 (fun j => ?_)
        (Admits.refl table')
      by_cases same : j = i
      · rw [same]
        exact refines.2.toKeeps
      · exact elsewhere j same
  | false =>
      simp only [verdict, Bool.false_eq_true, if_false] at refines ⊢
      refine Admits.nil fun j => ?_
      by_cases same : j = i
      · rw [same]
        exact refines
      · exact elsewhere j same

/-- One call of `seq_check` moves one window, and only if it says so. -/
theorem seqCheck_admits (s : Session) (v : PacketView) :
    Admits replayWindowSize s.windows
      (if (seqCheck s v).2 then [(windowOf s v.pathIdx, v.seq.toNat)] else [])
      (seqCheck s v).1.windows := by
  unfold seqCheck
  by_cases zero : v.seq = 0
  · rw [if_pos zero]
    exact Admits.refl s.windows
  rw [if_neg zero]
  by_cases path : s.resilience.multipathEnabled ∧
      v.pathIdx < s.resilience.pathCount
  · have consulted : windowOf s v.pathIdx = some v.pathIdx := if_pos path
    rw [if_pos path]
    rw [consulted]
    refine admits_of_refines rfl ?_ ?_
    · simp [Session.windows, Resilience.setPath]
    · intro j different
      cases j with
      | none =>
          rfl
      | some j =>
          have apart : j ≠ v.pathIdx := by
            simpa using different
          simp [Session.windows, Resilience.setPath, apart]
  · have consulted : windowOf s v.pathIdx = none := if_neg path
    rw [if_neg path, consulted]
    refine admits_of_refines rfl rfl ?_
    intro j different
    cases j with
    | none =>
        exact absurd rfl different
    | some j =>
        rfl

end PqComm
