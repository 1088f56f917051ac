import Mathlib.Algebra.Group.Nat.Defs
import Mathlib.Data.List.GetD

/-!
# Byte strings and byte memories

A `Mem` is the contents of a C buffer, one byte for each offset.  It is a
total function, so that a buffer keeps whatever bytes were left in it by an
earlier use, and a read past the part that was written returns those bytes.

`memWrite` is `memcpy` into a memory and `memSlice` is the byte string a
`memcpy` out of it would produce.  `leBytes` and `leNat` are the
little-endian encoding of a machine integer and its inverse.
-/

namespace PqComm.Lib

/-- A finite byte string. -/
abbrev Bytes := List UInt8

/-- The contents of a buffer. -/
abbrev Mem := Nat → UInt8

/-- `memcpy(mem + off, bytes, length bytes)`. -/
def memWrite (mem : Mem) (off : Nat) (bytes : Bytes) : Mem :=
  fun i =>
    if off ≤ i ∧ i < off + bytes.length then
      bytes.getD (i - off) 0
    else
      mem i

/-- The `n` bytes of `mem` from `off` on. -/
def memSlice (mem : Mem) (off n : Nat) : Bytes :=
  (List.range n).map fun i => mem (off + i)

/-- The little-endian encoding of `value` in `width` bytes. -/
def leBytes : Nat → Nat → Bytes
  | 0, _ => []
  | width + 1, value =>
      UInt8.ofNat value :: leBytes width (value / 256)

/-- The number a little-endian byte string encodes. -/
def leNat : Bytes → Nat
  | [] => 0
  | byte :: rest => byte.toNat + 256 * leNat rest

/-- A block of zero bytes, as `memset` and `crypto_secure_wipe` leave it. -/
def zeros (n : Nat) : Bytes :=
  List.replicate n 0

/-- The exclusive or of two byte strings, as long as the first. -/
def xorBytes : Bytes → Bytes → Bytes
  | [], _ => []
  | left :: rest, [] => left :: rest
  | left :: rest, right :: others =>
      (left ^^^ right) :: xorBytes rest others

/-- `memcpy(dst, src, length src)` into a fixed array. -/
def overlay (dst src : Bytes) : Bytes :=
  src ++ dst.drop src.length

@[simp]
theorem length_zeros (n : Nat) : (zeros n).length = n := by
  simp [zeros]

@[simp]
theorem length_memSlice (mem : Mem) (off n : Nat) :
    (memSlice mem off n).length = n := by
  simp [memSlice]

@[simp]
theorem length_leBytes (width value : Nat) :
    (leBytes width value).length = width := by
  induction width generalizing value with
  | zero =>
      rfl
  | succ width inductionHypothesis =>
      simp [leBytes, inductionHypothesis]

/-- Decoding an encoding returns the value modulo the width. -/
theorem leNat_leBytes (width value : Nat) :
    leNat (leBytes width value) = value % 256 ^ width := by
  induction width generalizing value with
  | zero =>
      simp [leBytes, leNat, Nat.mod_one]
  | succ width inductionHypothesis =>
      have head : (UInt8.ofNat value).toNat = value % 256 := by
        simp
      rw [leBytes, leNat, inductionHypothesis, head, Nat.pow_succ,
        Nat.mul_comm (256 ^ width) 256, Nat.mod_mul]

/-- A byte string encodes a number of its width. -/
theorem leNat_lt (bytes : Bytes) : leNat bytes < 256 ^ bytes.length := by
  induction bytes with
  | nil =>
      simp [leNat]
  | cons byte rest inductionHypothesis =>
      have small := byte.toNat_lt
      rw [leNat, List.length_cons, Nat.pow_succ]
      omega

theorem uint32_leNat_leBytes (value : UInt32) :
    UInt32.ofNat (leNat (leBytes 4 value.toNat)) = value := by
  have whole : value.toNat % 256 ^ 4 = value.toNat :=
    Nat.mod_eq_of_lt value.toNat_lt
  rw [leNat_leBytes, whole, UInt32.ofNat_toNat]

theorem uint64_leNat_leBytes (value : UInt64) :
    UInt64.ofNat (leNat (leBytes 8 value.toNat)) = value := by
  have whole : value.toNat % 256 ^ 8 = value.toNat :=
    Nat.mod_eq_of_lt value.toNat_lt
  rw [leNat_leBytes, whole, UInt64.ofNat_toNat]

/-- Equal numbers of equally many bytes are equal bytes. -/
theorem leNat_inj {left right : Bytes} (length : left.length = right.length)
    (equal : leNat left = leNat right) : left = right := by
  induction left generalizing right with
  | nil =>
      exact (List.length_eq_zero_iff.mp length.symm).symm
  | cons byte rest hypothesis =>
      cases right with
      | nil =>
          cases length
      | cons byte' rest' =>
          simp only [leNat] at equal
          have small := byte.toNat_lt
          have small' := byte'.toNat_lt
          have head : byte = byte' := by
            apply UInt8.toNat_inj.mp
            omega
          have tail : leNat rest = leNat rest' := by
            rw [head] at equal
            omega
          rw [head, hypothesis (by simpa using length) tail]

theorem memWrite_inside
    {mem : Mem} {off i : Nat} {bytes : Bytes}
    (lower : off ≤ i) (upper : i < off + bytes.length) :
    memWrite mem off bytes i = bytes.getD (i - off) 0 := by
  simp [memWrite, lower, upper]

theorem memWrite_before
    {mem : Mem} {off i : Nat} {bytes : Bytes}
    (before : i < off) :
    memWrite mem off bytes i = mem i := by
  simp [memWrite, Nat.not_le.mpr before]

theorem memWrite_after
    {mem : Mem} {off i : Nat} {bytes : Bytes}
    (after : off + bytes.length ≤ i) :
    memWrite mem off bytes i = mem i := by
  simp [memWrite, Nat.not_lt.mpr after]

@[simp]
theorem memWrite_byte_self (mem : Mem) (off : Nat) (byte : UInt8) :
    memWrite mem off [byte] off = byte := by
  rw [memWrite_inside (Nat.le_refl off) (by simp)]
  simp

theorem memWrite_byte_ne
    {off i : Nat} (different : i ≠ off) (mem : Mem) (byte : UInt8) :
    memWrite mem off [byte] i = mem i := by
  rcases Nat.lt_or_gt_of_ne different with before | after
  · exact memWrite_before before
  · exact memWrite_after after

/-- Writing a concatenation is writing its parts one after the other. -/
theorem memWrite_append (mem : Mem) (off : Nat) (left right : Bytes) :
    memWrite mem off (left ++ right) =
      memWrite (memWrite mem off left) (off + left.length) right := by
  funext i
  by_cases before : i < off
  · rw [memWrite_before before, memWrite_before (by omega),
      memWrite_before before]
  by_cases inLeft : i < off + left.length
  · rw [memWrite_inside (by omega) (by simp; omega), memWrite_before inLeft,
      memWrite_inside (by omega) inLeft, List.getD_append _ _ _ _ (by omega)]
  by_cases inRight : i < off + left.length + right.length
  · rw [memWrite_inside (by omega) (by simp; omega),
      memWrite_inside (by omega) inRight,
      List.getD_append_right _ _ _ _ (by omega)]
    congr 1
    omega
  · rw [memWrite_after (by simp; omega), memWrite_after (by omega),
      memWrite_after (by omega)]

/-- A slice depends only on the bytes inside it. -/
theorem memSlice_congr
    {left right : Mem} {off n : Nat}
    (same : ∀ i, off ≤ i → i < off + n → left i = right i) :
    memSlice left off n = memSlice right off n := by
  apply List.map_congr_left
  intro i member
  exact same (off + i) (Nat.le_add_right off i)
    (Nat.add_lt_add_left (List.mem_range.mp member) off)

/-- Reading back inside a written block. -/
theorem memSlice_memWrite_within
    {mem : Mem} {base off n : Nat} {bytes : Bytes}
    (lower : base ≤ off) (upper : off + n ≤ base + bytes.length) :
    memSlice (memWrite mem base bytes) off n =
      (bytes.drop (off - base)).take n := by
  apply List.ext_getElem
  · simp only [length_memSlice, List.length_take, List.length_drop]
    omega
  · intro i leftBound rightBound
    simp only [length_memSlice] at leftBound
    simp only [memSlice, List.getElem_map, List.getElem_range,
      List.getElem_take, List.getElem_drop]
    rw [memWrite_inside (by omega) (by omega), List.getD_eq_getElem _ _ (by omega)]
    congr 1
    omega

/-- Reading back exactly what was written. -/
theorem memSlice_memWrite_self
    (mem : Mem) (off : Nat) (bytes : Bytes) :
    memSlice (memWrite mem off bytes) off bytes.length = bytes := by
  rw [memSlice_memWrite_within (Nat.le_refl off) (Nat.le_refl _)]
  simp

/-- A write does not disturb a slice that lies before or after it. -/
theorem memSlice_memWrite_disjoint
    {mem : Mem} {base off n : Nat} {bytes : Bytes}
    (apart : off + n ≤ base ∨ base + bytes.length ≤ off) :
    memSlice (memWrite mem base bytes) off n = memSlice mem off n := by
  apply memSlice_congr
  intro i lower upper
  rcases apart with before | after
  · exact memWrite_before (by omega)
  · exact memWrite_after (by omega)

/-- A slice splits at any offset inside it. -/
theorem memSlice_append (mem : Mem) (off left right : Nat) :
    memSlice mem off (left + right) =
      memSlice mem off left ++ memSlice mem (off + left) right := by
  simp only [memSlice, List.range_add, List.map_append, List.map_map]
  congr 1
  apply List.map_congr_left
  intro i _
  simp [Nat.add_assoc]

theorem take_memSlice (mem : Mem) (off n count : Nat) :
    (memSlice mem off n).take count = memSlice mem off (min count n) := by
  rw [memSlice, ← List.map_take, List.take_range, memSlice]

theorem getD_memSlice
    {mem : Mem} {off n i : Nat} (inside : i < n) :
    (memSlice mem off n).getD i 0 = mem (off + i) := by
  rw [List.getD_eq_getElem _ _ (by simpa using inside)]
  simp [memSlice]

/-- Encoding what was decoded. -/
theorem leBytes_leNat (bytes : Bytes) :
    leBytes bytes.length (leNat bytes) = bytes := by
  apply leNat_inj (length_leBytes _ _)
  rw [leNat_leBytes, Nat.mod_eq_of_lt (leNat_lt bytes)]

theorem leBytes_memSlice (mem : Mem) (off n : Nat) :
    leBytes n (leNat (memSlice mem off n)) = memSlice mem off n := by
  have read := leBytes_leNat (memSlice mem off n)
  rw [length_memSlice] at read
  exact read

theorem leNat_memSlice_lt (mem : Mem) (off n : Nat) :
    leNat (memSlice mem off n) < 256 ^ n := by
  have bound := leNat_lt (memSlice mem off n)
  rw [length_memSlice] at bound
  exact bound

/-! ## Sequences of writes -/

/-- A `memcpy` into a buffer. -/
structure Write where
  off : Nat
  bytes : Bytes

/-- The writes one after the other. -/
def applyWrites (mem : Mem) (writes : List Write) : Mem :=
  writes.foldl (fun mem w => memWrite mem w.off w.bytes) mem

/-- Every byte that is written lies below `limit`. -/
def WritesBelow (limit : Nat) (writes : List Write) : Prop :=
  ∀ w ∈ writes, ∀ i, w.off ≤ i → i < w.off + w.bytes.length → i < limit

theorem applyWrites_append (mem : Mem) (first second : List Write) :
    applyWrites mem (first ++ second) =
      applyWrites (applyWrites mem first) second :=
  List.foldl_append

theorem writesBelow_append {limit : Nat} {first second : List Write} :
    WritesBelow limit (first ++ second) ↔
      WritesBelow limit first ∧ WritesBelow limit second := by
  unfold WritesBelow
  simp only [List.mem_append, or_imp, forall_and]

theorem writesBelow_cons {limit : Nat} {w : Write} {rest : List Write} :
    WritesBelow limit (w :: rest) ↔
      (w.bytes = [] ∨ w.off + w.bytes.length ≤ limit) ∧
        WritesBelow limit rest := by
  unfold WritesBelow
  rw [List.forall_mem_cons]
  refine and_congr_left fun _ => ⟨fun below => ?_, ?_⟩
  · by_cases empty : w.bytes = []
    · exact Or.inl empty
    · have some := List.length_pos_iff.mpr empty
      have last := below (w.off + w.bytes.length - 1) (by omega) (by omega)
      exact Or.inr (by omega)
  · rintro (empty | fits) i lower upper
    · rw [empty, List.length_nil] at upper
      omega
    · omega

theorem writesBelow_nil (limit : Nat) : WritesBelow limit [] :=
  nofun

/-! ## Exclusive or -/

@[simp]
theorem length_xorBytes (left right : Bytes) :
    (xorBytes left right).length = left.length := by
  induction left generalizing right with
  | nil =>
      simp [xorBytes]
  | cons byte rest hypothesis =>
      cases right with
      | nil =>
          rfl
      | cons other others =>
          simp [xorBytes, hypothesis]

/-- The same key twice is no key. -/
theorem xorBytes_xorBytes (left key : Bytes) :
    xorBytes (xorBytes left key) key = left := by
  induction left generalizing key with
  | nil =>
      simp [xorBytes]
  | cons byte rest hypothesis =>
      cases key with
      | nil =>
          rfl
      | cons other others =>
          simp only [xorBytes, hypothesis, UInt8.xor_assoc, UInt8.xor_self,
            UInt8.xor_zero]

theorem xorBytes_right_inj {left right : Bytes} (key : Bytes)
    (equal : xorBytes left key = xorBytes right key) : left = right := by
  rw [← xorBytes_xorBytes left key, equal, xorBytes_xorBytes]

/-- The key can be read off from a text and its sum with the key. -/
theorem xorBytes_left_inj {text left right : Bytes}
    (leftLength : left.length = text.length)
    (rightLength : right.length = text.length)
    (equal : xorBytes text left = xorBytes text right) : left = right := by
  induction text generalizing left right with
  | nil =>
      rw [List.length_eq_zero_iff.mp leftLength,
        List.length_eq_zero_iff.mp rightLength]
  | cons byte rest hypothesis =>
      cases left with
      | nil =>
          cases leftLength
      | cons head tail =>
          cases right with
          | nil =>
              cases rightLength
          | cons head' tail' =>
              simp only [xorBytes, List.cons.injEq] at equal
              have heads : head = head' := by
                have same := congrArg (byte ^^^ ·) equal.1
                simpa [← UInt8.xor_assoc] using same
              rw [heads, hypothesis (by simpa using leftLength)
                (by simpa using rightLength) equal.2]

theorem take_xorBytes (n : Nat) (left right : Bytes) :
    (xorBytes left right).take n =
      xorBytes (left.take n) (right.take n) := by
  induction n generalizing left right with
  | zero =>
      simp [xorBytes]
  | succ n hypothesis =>
      cases left with
      | nil =>
          simp [xorBytes]
      | cons byte rest =>
          cases right with
          | nil =>
              simp [xorBytes]
          | cons other others =>
              simp [xorBytes, hypothesis]

theorem xorBytes_zeros (left : Bytes) (n : Nat) :
    xorBytes left (zeros n) = left := by
  induction left generalizing n with
  | nil =>
      simp [xorBytes]
  | cons byte rest hypothesis =>
      cases n with
      | zero =>
          rfl
      | succ n =>
          have tail := hypothesis n
          simp only [zeros] at tail
          simp [zeros, List.replicate_succ, xorBytes, tail]

end PqComm.Lib
