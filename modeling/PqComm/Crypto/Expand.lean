import PqComm.Crypto.Suite

/-!
# `hkdf_expand` and RFC 5869

The specification of HKDF-Expand defines blocks `T(1)`, `T(2)` and so on, each
from the one before it, and takes the first bytes of them.  The loop of
`hkdf_expand` computes the blocks in place, with a counter of one byte, and
copies what is still wanted of each.  The counter of the last block that may be
asked for is 255; it wraps after that block and is not looked at any more.
-/

namespace PqComm

open Lib

section

variable (C : CryptoSuite) (prk info : Bytes)

/-- `T(i)` of the specification. -/
def expandBlock : Nat → Bytes
  | 0 => []
  | i + 1 => C.hmacSha256 prk (expandBlock i ++ info ++ [UInt8.ofNat (i + 1)])

/-- `n` blocks of the specification, from `T(first + 1)` on. -/
def expandBlocks (first n : Nat) : Bytes :=
  (List.range n).flatMap fun i => expandBlock C prk info (first + i + 1)

/-- How many blocks the specification needs for so many bytes. -/
def blocksFor (length : Nat) : Nat :=
  (length + 31) / 32

/-- The values of the counter that the loop of `hkdf_expand` tests. -/
def hkdfExpandCounters : Nat → Nat → UInt8 → List UInt8
  | 0, _, _ => []
  | fuel + 1, remaining, counter =>
      if remaining = 0 then
        []
      else if counter = 0 then
        [counter]
      else
        counter ::
          hkdfExpandCounters fuel (remaining - min remaining 32) (counter + 1)

theorem length_expandBlock (i : Nat) :
    (expandBlock C prk info (i + 1)).length = 32 :=
  C.length_hmacSha256 _ _

theorem expandBlocks_succ (first n : Nat) :
    expandBlocks C prk info first (n + 1) =
      expandBlock C prk info (first + 1) ++
        expandBlocks C prk info (first + 1) n := by
  rw [expandBlocks, List.range_succ_eq_map, List.flatMap_cons,
    List.flatMap_map, expandBlocks]
  congr 2
  funext i
  rw [Nat.add_assoc first 1 i, Nat.add_comm 1 i]

end

/-! ## The counter -/

theorem blocksFor_pos {length : Nat} (some : 0 < length) :
    blocksFor length = blocksFor (length - min length 32) + 1 := by
  unfold blocksFor
  omega

theorem ofNat_succ_ne_zero {i : Nat} (small : i < 255) :
    UInt8.ofNat (i + 1) ≠ 0 := by
  intro zero
  have value := congrArg UInt8.toNat zero
  rw [UInt8.toNat_ofNat'] at value
  change (i + 1) % 2 ^ 8 = 0 at value
  omega

/-- Up to the 255th block the counter is not zero. -/
theorem hkdfExpandCounters_ne_zero
    {fuel remaining done : Nat} (few : done + blocksFor remaining ≤ 255) :
    ∀ counter ∈
        hkdfExpandCounters fuel remaining (UInt8.ofNat (done + 1)),
      counter ≠ 0 := by
  induction fuel generalizing remaining done with
  | zero =>
      exact List.forall_mem_nil _
  | succ fuel inductionHypothesis =>
      rw [hkdfExpandCounters]
      split
      · exact List.forall_mem_nil _
      · rename_i some
        rw [blocksFor_pos (Nat.pos_of_ne_zero some)] at few
        have nonzero : UInt8.ofNat (done + 1) ≠ 0 :=
          ofNat_succ_ne_zero (by omega)
        rw [if_neg nonzero, List.forall_mem_cons]
        refine ⟨nonzero, ?_⟩
        have next : UInt8.ofNat (done + 1) + 1 = UInt8.ofNat (done + 1 + 1) :=
          (UInt8.ofNat_add (done + 1) 1).symm
        rw [next]
        exact inductionHypothesis (by omega)

/-! ## The output -/

section

variable (C : CryptoSuite) (prk info : Bytes)

/-- After `done` blocks the loop goes on with the next ones. -/
theorem hkdfExpandLoop_eq
    {fuel remaining done : Nat} (enough : remaining ≤ fuel)
    (few : done + blocksFor remaining ≤ 255) :
    hkdfExpandLoop C prk info fuel remaining
        (expandBlock C prk info done) (UInt8.ofNat (done + 1)) =
      some
        ((expandBlocks C prk info done (blocksFor remaining)).take
          remaining) := by
  induction fuel generalizing remaining done with
  | zero =>
      rw [Nat.le_zero.mp enough]
      rfl
  | succ fuel inductionHypothesis =>
      rw [hkdfExpandLoop]
      split
      · rename_i none
        rw [none]
        rfl
      · rename_i some
        have positive := Nat.pos_of_ne_zero some
        rw [blocksFor_pos positive] at few ⊢
        rw [if_neg (ofNat_succ_ne_zero (by omega))]
        have next : UInt8.ofNat (done + 1) + 1 = UInt8.ofNat (done + 1 + 1) :=
          (UInt8.ofNat_add (done + 1) 1).symm
        have later :
            hkdfExpandLoop C prk info fuel (remaining - min remaining 32)
              (expandBlock C prk info (done + 1)) _ = _ :=
          inductionHypothesis (by omega) (by omega)
        have head :
            (expandBlock C prk info (done + 1)).take (min remaining 32) =
              (expandBlock C prk info (done + 1)).take remaining := by
          rw [List.take_eq_take_iff, length_expandBlock]
          omega
        have rest : remaining - min remaining 32 = remaining - 32 := by
          omega
        rw [next]
        change Option.map
          ((expandBlock C prk info (done + 1)).take (min remaining 32) ++ ·)
          (hkdfExpandLoop C prk info fuel (remaining - min remaining 32)
            (expandBlock C prk info (done + 1)) _) = _
        rw [later, Option.map_some, expandBlocks_succ, List.take_append,
          length_expandBlock, head, rest]

/-- `hkdf_expand` succeeds for 1 to 8160 bytes and for no other length.  Then
its output is that of the specification, and the counter that its loop tests
is never zero. -/
theorem hkdf_expand_specified (long : 32 ≤ prk.length) (okmLen : Nat) :
    ((hkdfExpand C prk info okmLen).isSome = true ↔
        1 ≤ okmLen ∧ okmLen ≤ 8160) ∧
      (1 ≤ okmLen ∧ okmLen ≤ 8160 →
        hkdfExpand C prk info okmLen =
            some
              ((expandBlocks C prk info 0 (blocksFor okmLen)).take
                okmLen) ∧
          ∀ counter ∈ hkdfExpandCounters okmLen okmLen 1, counter ≠ 0) := by
  have few (admitted : 1 ≤ okmLen ∧ okmLen ≤ 8160) :
      0 + blocksFor okmLen ≤ 255 := by
    unfold blocksFor
    omega
  have produces (admitted : 1 ≤ okmLen ∧ okmLen ≤ 8160) :
      hkdfExpand C prk info okmLen =
        some
          ((expandBlocks C prk info 0 (blocksFor okmLen)).take okmLen) := by
    unfold hkdfExpand
    rw [if_neg (Nat.not_lt.mpr long), if_neg (by omega)]
    exact hkdfExpandLoop_eq C prk info (Nat.le_refl okmLen) (few admitted)
  refine ⟨⟨?_, ?_⟩, ?_⟩
  · intro succeeds
    unfold hkdfExpand at succeeds
    rw [if_neg (Nat.not_lt.mpr long)] at succeeds
    split at succeeds
    · cases succeeds
    · omega
  · intro admitted
    rw [produces admitted]
    rfl
  · intro admitted
    exact ⟨produces admitted, hkdfExpandCounters_ne_zero (few admitted)⟩

end

/-- Two blocks and one byte of a third. -/
theorem hkdf_expand_specified_sample :
    hkdfExpand sampleSuite (zeros 32) labelSession 65 =
      some ((expandBlocks sampleSuite (zeros 32) labelSession 0 3).take 65) :=
  ((hkdf_expand_specified sampleSuite (zeros 32) labelSession (by decide)
    65).2 (by decide)).1

end PqComm
