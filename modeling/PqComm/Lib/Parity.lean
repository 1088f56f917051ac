import PqComm.Lib.Bytes

/-!
# Parity of byte strings

The exclusive or of several byte strings, each continued with zeros to the
length of the longest.  Of strings whose parity is known, any one can be
computed from the others, up to the zeros.
-/

namespace PqComm.Lib

/-- The exclusive or of the bytes at one place. -/
def parityAt : List Bytes → Nat → UInt8
  | [], _ => 0
  | text :: rest, k => text.getD k 0 ^^^ parityAt rest k

def maxLength : List Bytes → Nat
  | [] => 0
  | text :: rest => max text.length (maxLength rest)

/-- The parity of byte strings, as long as the longest. -/
def parityBytes (texts : List Bytes) : Bytes :=
  (List.range (maxLength texts)).map (parityAt texts)

/-- A byte string continued with zeros. -/
def padTo (n : Nat) (text : Bytes) : Bytes :=
  text ++ zeros (n - text.length)

@[simp]
theorem length_parityBytes (texts : List Bytes) :
    (parityBytes texts).length = maxLength texts := by
  simp [parityBytes]

theorem length_padTo {n : Nat} {text : Bytes} (fits : text.length ≤ n) :
    (padTo n text).length = n := by
  rw [padTo, List.length_append, length_zeros]
  omega

theorem padTo_eq_iff {n : Nat} {text : Bytes} (fits : text.length ≤ n) :
    padTo n text = text ↔ n = text.length := by
  constructor
  · intro same
    rw [← length_padTo fits, same]
  · intro full
    rw [padTo, full, Nat.sub_self]
    exact List.append_nil text

theorem getD_padTo (n : Nat) (text : Bytes) (k : Nat) :
    (padTo n text).getD k 0 = text.getD k 0 := by
  unfold padTo
  by_cases inside : k < text.length
  · exact List.getD_append _ _ _ _ inside
  · have beyond : text.length ≤ k := Nat.not_lt.mp inside
    rw [List.getD_append_right _ _ _ _ beyond,
      List.getD_eq_default text 0 beyond, zeros, List.getD_eq_getElem?_getD,
      List.getElem?_replicate]
    split <;> rfl

/-! ## Sums -/

theorem parityAt_append (first second : List Bytes) (k : Nat) :
    parityAt (first ++ second) k = parityAt first k ^^^ parityAt second k := by
  induction first with
  | nil =>
      simp [parityAt]
  | cons text rest inductionHypothesis =>
      simp only [List.cons_append, parityAt, inductionHypothesis,
        UInt8.xor_assoc]

theorem maxLength_append (first second : List Bytes) :
    maxLength (first ++ second) = max (maxLength first) (maxLength second) := by
  induction first with
  | nil =>
      simp [maxLength]
  | cons text rest inductionHypothesis =>
      simp only [List.cons_append, maxLength, inductionHypothesis,
        Nat.max_assoc]

theorem length_le_maxLength
    {text : Bytes} {texts : List Bytes} (member : text ∈ texts) :
    text.length ≤ maxLength texts := by
  induction texts with
  | nil =>
      cases member
  | cons first rest inductionHypothesis =>
      rcases List.mem_cons.mp member with rfl | later
      · exact Nat.le_max_left _ _
      · exact Nat.le_trans (inductionHypothesis later) (Nat.le_max_right _ _)

theorem maxLength_le_iff {texts : List Bytes} {n : Nat} :
    maxLength texts ≤ n ↔ ∀ text ∈ texts, text.length ≤ n := by
  induction texts with
  | nil =>
      simp [maxLength]
  | cons first rest inductionHypothesis =>
      simp only [maxLength, Nat.max_le, inductionHypothesis,
        List.forall_mem_cons]

/-- A missing string is the sum of the others and the parity. -/
theorem parityAt_missing (before after : List Bytes) (missing : Bytes)
    (k : Nat) :
    parityAt (before ++ missing :: after) k ^^^ parityAt (before ++ after) k =
      missing.getD k 0 := by
  rw [parityAt_append, parityAt_append, parityAt]
  have sums (a b c : UInt8) : (a ^^^ (b ^^^ c)) ^^^ (a ^^^ c) = b := by
    rw [UInt8.xor_comm a (b ^^^ c), UInt8.xor_assoc,
      ← UInt8.xor_assoc a a c, UInt8.xor_self, UInt8.zero_xor,
      UInt8.xor_assoc, UInt8.xor_self, UInt8.xor_zero]
  exact sums _ _ _

/-! ## Strings -/

theorem getD_xorBytes (left right : Bytes) {k : Nat} (inside : k < left.length) :
    (xorBytes left right).getD k 0 = left.getD k 0 ^^^ right.getD k 0 := by
  induction left generalizing right k with
  | nil =>
      cases inside
  | cons byte rest inductionHypothesis =>
      cases right with
      | nil =>
          simp [xorBytes]
      | cons other others =>
          cases k with
          | zero =>
              rfl
          | succ k =>
              have shorter : k < rest.length := by
                simpa using inside
              simpa [xorBytes] using inductionHypothesis others shorter

theorem length_foldl_xorBytes (texts : List Bytes) (start : Bytes) :
    (texts.foldl xorBytes start).length = start.length := by
  induction texts generalizing start with
  | nil =>
      rfl
  | cons text rest inductionHypothesis =>
      rw [List.foldl_cons, inductionHypothesis, length_xorBytes]

theorem getD_foldl_xorBytes
    (texts : List Bytes) (start : Bytes) {k : Nat}
    (inside : k < start.length) :
    (texts.foldl xorBytes start).getD k 0 =
      start.getD k 0 ^^^ parityAt texts k := by
  induction texts generalizing start with
  | nil =>
      simp [parityAt]
  | cons text rest inductionHypothesis =>
      rw [List.foldl_cons,
        inductionHypothesis _ (by rw [length_xorBytes]; exact inside),
        getD_xorBytes _ _ inside, parityAt, UInt8.xor_assoc]

theorem getD_parityBytes (texts : List Bytes) {k : Nat}
    (inside : k < maxLength texts) :
    (parityBytes texts).getD k 0 = parityAt texts k := by
  unfold parityBytes
  rw [List.getD_eq_getElem _ _ (by simpa using inside)]
  simp

/-- The parity and all strings but one give that one. -/
theorem foldl_xorBytes_parityBytes
    (before after : List Bytes) (missing : Bytes) :
    (before ++ after).foldl xorBytes
        (parityBytes (before ++ missing :: after)) =
      padTo (maxLength (before ++ missing :: after)) missing := by
  have fits : missing.length ≤ maxLength (before ++ missing :: after) :=
    length_le_maxLength (by simp)
  apply List.ext_getElem
  · rw [length_foldl_xorBytes, length_parityBytes, length_padTo fits]
  · intro k left right
    have inside : k < maxLength (before ++ missing :: after) := by
      rw [length_padTo fits] at right
      exact right
    rw [← List.getD_eq_getElem _ 0, ← List.getD_eq_getElem _ 0,
      getD_foldl_xorBytes _ _ (by rw [length_parityBytes]; exact inside),
      getD_parityBytes _ inside, parityAt_missing, getD_padTo]

end PqComm.Lib
