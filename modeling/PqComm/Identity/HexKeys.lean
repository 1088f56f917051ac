import PqComm.Identity.KnownHosts

/-!
# Which strings are taken for a key

`hex_to_bytes` gives two characters at a time to `strtol`.  This accepts two
hex digits, but also white space or a sign before one digit, so a string that
is not hexadecimal can be taken for a key.
-/

namespace PqComm

open Lib

/-- The key that `identity_import_key` takes from a string; `stale` is what
lies behind the string in memory. -/
def importedKey (stale : Mem) (hexKey : Bytes) : Option Bytes :=
  if hexKey.length ≠ 64 then
    none
  else
    hexToBytes (memWrite stale 0 (hexKey ++ [0])) 32

/-- `tolower`, on a hex digit. -/
def lowerDigit (ch : UInt8) : UInt8 :=
  if 65 ≤ ch ∧ ch ≤ 90 then ch + 32 else ch

/-- White space or a sign. -/
def isMark (ch : UInt8) : Bool :=
  isSpace ch || ch == 43 || ch == 45

/-- Two hex digits at place `i` of a string. -/
def DigitPair (text : Bytes) (i : Nat) : Prop :=
  isDigitOf 16 (text.getD (i * 2) 0) = true ∧
    isDigitOf 16 (text.getD (i * 2 + 1) 0) = true

/-- A mark and a hex digit at place `i` of a string. -/
def MarkedPair (text : Bytes) (i : Nat) : Prop :=
  isMark (text.getD (i * 2) 0) = true ∧
    isDigitOf 16 (text.getD (i * 2 + 1) 0) = true

/-! ## One pair -/

theorem hexDigit_digitValue
    {ch : UInt8} (digit : isDigitOf 16 ch = true) :
    hexDigit (digitValue ch) = lowerDigit ch := by
  have all :
      ∀ k : Fin 256, isDigitOf 16 (UInt8.ofNat k.val) = true →
        hexDigit (digitValue (UInt8.ofNat k.val)) =
          lowerDigit (UInt8.ofNat k.val) := by
    decide +kernel
  have known := all ⟨ch.toNat, ch.toNat_lt⟩
  rw [UInt8.ofNat_toNat] at known
  exact known digit

theorem hexDigit_start {ch : UInt8} (digit : isDigitOf 16 ch = true) :
    isMark ch = false ∧ ch ≠ 0 := by
  have all :
      ∀ k : Fin 256, isDigitOf 16 (UInt8.ofNat k.val) = true →
        isMark (UInt8.ofNat k.val) = false ∧ UInt8.ofNat k.val ≠ 0 := by
    decide +kernel
  have known := all ⟨ch.toNat, ch.toNat_lt⟩
  rw [UInt8.ofNat_toNat] at known
  exact known digit

theorem isMark_eq_false_iff {ch : UInt8} :
    isMark ch = false ↔ isSpace ch = false ∧ ch ≠ 43 ∧ ch ≠ 45 := by
  rw [isMark, Bool.or_eq_false_iff, Bool.or_eq_false_iff, beq_eq_false_iff_ne,
    beq_eq_false_iff_ne, and_assoc]

theorem splitSign_of_visible
    {ch : UInt8} (rest : Bytes) (plus : ch ≠ 43) (minus : ch ≠ 45) :
    splitSign (ch :: rest) = (false, ch :: rest) := by
  rw [splitSign, if_neg minus, if_neg plus]

/-- What `strtol` reads of at most two characters that begin with neither
white space nor a sign. -/
theorem strtol_of_unmarked
    {ch : UInt8} {rest : Bytes} (short : rest.length ≤ 1)
    (unmarked : isMark ch = false) :
    strtol 16 (ch :: rest) =
      if isDigitOf 16 ch = true then
        let digits := rest.takeWhile (isDigitOf 16)
        some
          (((digits.foldl (fun n ch => 16 * n + digitValue ch)
            (digitValue ch) : Nat) : Int), rest.drop digits.length)
      else
        none := by
  obtain ⟨visible, plus, minus⟩ := isMark_eq_false_iff.mp unmarked
  have whole : dropHexMark (ch :: rest) = ch :: rest := by
    rcases rest with _ | ⟨second, _ | ⟨third, others⟩⟩
    · rfl
    · rfl
    · exact absurd short (by simp)
  unfold strtol
  rw [List.dropWhile_cons_of_neg (by simp [visible]),
    splitSign_of_visible rest plus minus]
  dsimp only
  rw [if_pos rfl, whole]
  by_cases digit : isDigitOf 16 ch = true
  · rw [if_pos digit, List.takeWhile_cons_of_pos digit]
    rw [if_neg (by simp), if_neg Bool.false_ne_true, List.foldl_cons,
      Nat.mul_zero, Nat.zero_add]
    rfl
  · rw [if_neg digit, List.takeWhile_cons_of_neg digit]
    rfl

theorem takeWhile_pair
    {high low : UInt8} (highText : high ≠ 0) (lowText : low ≠ 0) :
    ([high, low].takeWhile (· != 0)) = [high, low] := by
  rw [List.takeWhile_cons_of_pos (by simpa using highText),
    List.takeWhile_cons_of_pos (by simpa using lowText), List.takeWhile_nil]

/-- Two digits give the byte that they spell. -/
theorem hexPair_digits
    {high low : UInt8} (highDigit : isDigitOf 16 high = true)
    (lowDigit : isDigitOf 16 low = true) :
    ∃ byte, hexPair high low = some byte ∧
      hexByte byte = [lowerDigit high, lowerDigit low] := by
  have first : digitValue high < 16 := of_decide_eq_true highDigit
  have second : digitValue low < 16 := of_decide_eq_true lowDigit
  have value : 16 * digitValue high + digitValue low < 256 := by
    omega
  refine ⟨UInt8.ofNat (16 * digitValue high + digitValue low), ?_, ?_⟩
  · unfold hexPair
    rw [takeWhile_pair (hexDigit_start highDigit).2
      (hexDigit_start lowDigit).2]
    dsimp only
    rw [strtol_of_unmarked (by simp) (hexDigit_start highDigit).1,
      if_pos highDigit, List.takeWhile_cons_of_pos lowDigit]
    dsimp only
    rw [if_pos (by simp)]
    congr 2
    have plain : ((16 * digitValue high + digitValue low : Nat) : Int) % 256 =
        ((16 * digitValue high + digitValue low : Nat) : Int) := by
      omega
    exact congrArg Int.toNat plain
  · have size :
        (UInt8.ofNat (16 * digitValue high + digitValue low)).toNat =
          16 * digitValue high + digitValue low := by
      rw [UInt8.toNat_ofNat', Nat.mod_eq_of_lt value]
    have upper :
        (16 * digitValue high + digitValue low) / 16 = digitValue high := by
      omega
    have lower :
        (16 * digitValue high + digitValue low) % 16 = digitValue low := by
      omega
    rw [hexByte, size, upper, lower, hexDigit_digitValue highDigit,
      hexDigit_digitValue lowDigit]

theorem strtol_of_space
    {ch : UInt8} (rest : Bytes) (blank : isSpace ch = true) :
    strtol 16 (ch :: rest) = strtol 16 rest := by
  unfold strtol
  rw [List.dropWhile_cons_of_pos blank]

/-- What `strtol` reads of a sign and one more character. -/
theorem strtol_of_sign
    {sign : UInt8} (low : UInt8) (signed : sign = 43 ∨ sign = 45) :
    strtol 16 [sign, low] =
      if isDigitOf 16 low = true then
        some (if sign = 45 then -(digitValue low : Int) else digitValue low,
          [])
      else
        none := by
  have visible : isSpace sign = false := by
    rcases signed with rfl | rfl
    · decide
    · decide
  have split : splitSign [sign, low] = (decide (sign = 45), [low]) := by
    rcases signed with rfl | rfl
    · rfl
    · rfl
  unfold strtol
  rw [List.dropWhile_cons_of_neg (by simp [visible]), split]
  dsimp only
  rw [if_pos rfl, dropHexMark]
  by_cases digit : isDigitOf 16 low = true
  · rw [if_pos digit, List.takeWhile_cons_of_pos digit]
    simp
  · rw [if_neg digit, List.takeWhile_cons_of_neg digit]
    rfl
  · intro zero x ch rest long
    cases long

theorem strtol_single
    {ch : UInt8} (other : isDigitOf 16 ch ≠ true) : strtol 16 [ch] = none := by
  cases mark : isMark ch with
  | false =>
      rw [strtol_of_unmarked (by simp) mark, if_neg other]
  | true =>
      rw [isMark, Bool.or_eq_true, Bool.or_eq_true, beq_iff_eq, beq_iff_eq]
        at mark
      rcases mark with (blank | plus) | minus
      · rw [strtol_of_space [] blank]
        rfl
      · rw [plus]
        decide
      · rw [minus]
        decide

/-- A mark and a digit are taken, a mark and anything else is not. -/
theorem hexPair_marked
    {high low : UInt8} (lowText : low ≠ 0) (mark : isMark high = true) :
    (hexPair high low).isSome = isDigitOf 16 low := by
  have highText : high ≠ 0 := by
    intro zero
    rw [zero] at mark
    exact absurd mark (by decide)
  unfold hexPair
  rw [takeWhile_pair highText lowText]
  rw [isMark, Bool.or_eq_true, Bool.or_eq_true, beq_iff_eq, beq_iff_eq,
    or_assoc] at mark
  by_cases digit : isDigitOf 16 low = true
  · rw [digit]
    rcases mark with blank | signed
    · dsimp only
      rw [strtol_of_space [low] blank,
        strtol_of_unmarked (by simp) (hexDigit_start digit).1,
        if_pos digit]
      rfl
    · dsimp only
      rw [strtol_of_sign low signed, if_pos digit]
      rfl
  · rw [Bool.eq_false_iff.mpr digit]
    rcases mark with blank | signed
    · dsimp only
      rw [strtol_of_space [low] blank, strtol_single digit]
      rfl
    · dsimp only
      rw [strtol_of_sign low signed, if_neg digit]
      rfl

theorem hexPair_unmarked
    {high low : UInt8} (highText : high ≠ 0) (lowText : low ≠ 0)
    (unmarked : isMark high = false)
    (other : ¬ (isDigitOf 16 high = true ∧ isDigitOf 16 low = true)) :
    hexPair high low = none := by
  unfold hexPair
  rw [takeWhile_pair highText lowText]
  dsimp only
  rw [strtol_of_unmarked (by simp) unmarked]
  by_cases digit : isDigitOf 16 high = true
  · have second : ¬ isDigitOf 16 low = true := fun low => other ⟨digit, low⟩
    rw [if_pos digit, List.takeWhile_cons_of_neg second]
    rfl
  · rw [if_neg digit]
    rfl

/-- The pairs that give a byte. -/
theorem hexPair_isSome_iff
    {high low : UInt8} (highText : high ≠ 0) (lowText : low ≠ 0) :
    (hexPair high low).isSome = true ↔
      (isDigitOf 16 high = true ∧ isDigitOf 16 low = true) ∨
        (isMark high = true ∧ isDigitOf 16 low = true) := by
  cases mark : isMark high with
  | true =>
      rw [hexPair_marked lowText mark]
      exact ⟨fun digit => Or.inr ⟨rfl, digit⟩,
        fun taken => taken.elim And.right And.right⟩
  | false =>
      constructor
      · intro given
        by_contra other
        rw [not_or] at other
        rw [hexPair_unmarked highText lowText mark other.1] at given
        cases given
      · rintro (⟨highDigit, lowDigit⟩ | ⟨absent, -⟩)
        · obtain ⟨byte, given, -⟩ := hexPair_digits highDigit lowDigit
          rw [given]
          rfl
        · cases absent

/-! ## A string -/

section

variable {hex : Mem} {len : Nat}

theorem length_hexToBytes
    {bytes : Bytes} (read : hexToBytes hex len = some bytes) :
    bytes.length = len := by
  induction len generalizing bytes with
  | zero =>
      cases read
      rfl
  | succ len inductionHypothesis =>
      rw [hexToBytes] at read
      obtain ⟨earlier, before, rest⟩ := Option.bind_eq_some_iff.mp read
      obtain ⟨byte, -, last⟩ := Option.bind_eq_some_iff.mp rest
      cases last
      rw [List.length_append, inductionHypothesis before]
      rfl

theorem hexToBytes_isSome_iff :
    (hexToBytes hex len).isSome = true ↔
      ∀ i, i < len →
        (hexPair (hex (i * 2)) (hex (i * 2 + 1))).isSome = true := by
  constructor
  · intro taken i inside
    cases pair : hexPair (hex (i * 2)) (hex (i * 2 + 1)) with
    | some byte => rfl
    | none =>
        rw [hexToBytes_none pair inside] at taken
        cases taken
  · intro pairs
    induction len with
    | zero => rfl
    | succ len inductionHypothesis =>
        have earlier := inductionHypothesis fun i inside =>
          pairs i (Nat.lt_succ_of_lt inside)
        obtain ⟨bytes, read⟩ := Option.isSome_iff_exists.mp earlier
        obtain ⟨byte, pair⟩ :=
          Option.isSome_iff_exists.mp (pairs len (Nat.lt_succ_self len))
        rw [hexToBytes, read]
        change ((hexPair _ _).bind _).isSome = true
        rw [pair]
        rfl

/-- The bytes of hex digits spell the digits again, in lower case. -/
theorem hexToBytes_digits
    (digits : ∀ i, i < len → isDigitOf 16 (hex (i * 2)) = true ∧
      isDigitOf 16 (hex (i * 2 + 1)) = true) :
    ∃ bytes, hexToBytes hex len = some bytes ∧
      bytesToHex bytes = (memSlice hex 0 (len * 2)).map lowerDigit := by
  induction len with
  | zero => exact ⟨[], rfl, rfl⟩
  | succ len inductionHypothesis =>
      obtain ⟨bytes, read, spelled⟩ := inductionHypothesis fun i inside =>
        digits i (Nat.lt_succ_of_lt inside)
      obtain ⟨high, low⟩ := digits len (Nat.lt_succ_self len)
      obtain ⟨byte, pair, spelling⟩ := hexPair_digits high low
      refine ⟨bytes ++ [byte], ?_, ?_⟩
      · rw [hexToBytes, read]
        change (hexPair _ _).bind _ = _
        rw [pair]
        rfl
      · have last :
            memSlice hex (0 + len * 2) 2 =
              [hex (len * 2), hex (len * 2 + 1)] := by
          rw [Nat.zero_add]
          rfl
        rw [bytesToHex, List.flatMap_append, ← bytesToHex, spelled,
          List.flatMap_singleton, spelling, Nat.succ_mul, memSlice_append,
          List.map_append, last]
        rfl

end

section

variable {text : Bytes} {count : Nat}

/-- All characters of a string are digits when all its pairs are. -/
theorem forall_digit_iff (size : text.length = count * 2) :
    (∀ ch ∈ text, isDigitOf 16 ch = true) ↔
      ∀ i, i < count → DigitPair text i := by
  constructor
  · intro digits i inside
    have place (k : Nat) (below : k < text.length) :
        isDigitOf 16 (text.getD k 0) = true := by
      rw [List.getD_eq_getElem _ _ below]
      exact digits _ (List.getElem_mem below)
    exact ⟨place _ (by omega), place _ (by omega)⟩
  · intro pairs ch member
    obtain ⟨k, below, rfl⟩ := List.getElem_of_mem member
    obtain ⟨first, second⟩ := pairs (k / 2) (by omega)
    rw [← List.getD_eq_getElem _ 0 below]
    rcases Nat.mod_two_eq_zero_or_one k with even | odd
    · have place : k / 2 * 2 = k := by
        omega
      rwa [place] at first
    · have place : k / 2 * 2 + 1 = k := by
        omega
      rwa [place] at second

/-- A pair of characters of the string, as `hex_to_bytes` reads them. -/
theorem hexPair_text_isSome_iff
    (stale : Mem) (noNul : 0 ∉ text) {i : Nat}
    (inside : i * 2 + 1 < text.length) :
    (hexPair (memWrite stale 0 (text ++ [0]) (i * 2))
        (memWrite stale 0 (text ++ [0]) (i * 2 + 1))).isSome = true ↔
      DigitPair text i ∨ MarkedPair text i := by
  have visible (k : Nat) (below : k < text.length) : text.getD k 0 ≠ 0 := by
    rw [List.getD_eq_getElem _ _ below]
    exact fun zero => noNul (zero ▸ List.getElem_mem below)
  rw [memWrite_text stale (Nat.lt_of_succ_lt inside),
    memWrite_text stale inside]
  exact hexPair_isSome_iff (visible _ (Nat.lt_of_succ_lt inside))
    (visible _ inside)

end

theorem length_importedKey
    {stale : Mem} {text key : Bytes}
    (taken : importedKey stale text = some key) : key.length = 32 := by
  unfold importedKey at taken
  split at taken
  · cases taken
  · exact length_hexToBytes taken

/-- A string is taken exactly when it is hexadecimal, and the key spells the
string again in lower case. -/
def TakenExactly (stale : Mem) (text : Bytes) : Prop :=
  ((importedKey stale text).isSome = true ↔
      ∀ ch ∈ text, isDigitOf 16 ch = true) ∧
    ∀ key, importedKey stale text = some key →
      bytesToHex key = text.map lowerDigit

/-- What is hexadecimal is taken and spelled again. -/
theorem importedKey_digits
    (stale : Mem) {text : Bytes} (size : text.length = 64)
    (digits : ∀ ch ∈ text, isDigitOf 16 ch = true) :
    ∃ key, importedKey stale text = some key ∧
      bytesToHex key = text.map lowerDigit := by
  have pairs : ∀ i, i < 32 → DigitPair text i :=
    (forall_digit_iff size).mp digits
  have held : ∀ i, i < 32 →
      isDigitOf 16 (memWrite stale 0 (text ++ [0]) (i * 2)) = true ∧
        isDigitOf 16 (memWrite stale 0 (text ++ [0]) (i * 2 + 1)) = true := by
    intro i inside
    rw [memWrite_text stale (by omega), memWrite_text stale (by omega)]
    exact pairs i inside
  obtain ⟨key, read, spelled⟩ := hexToBytes_digits held
  refine ⟨key, ?_, ?_⟩
  · unfold importedKey
    rw [if_neg (not_not.mpr size)]
    exact read
  · have room : 0 + 64 ≤ 0 + (text ++ [0]).length := by
      rw [List.length_append, size]
      decide
    have block :
        memSlice (memWrite stale 0 (text ++ [0])) 0 64 =
          ((text ++ [0]).drop (0 - 0)).take 64 :=
      memSlice_memWrite_within (Nat.le_refl 0) room
    rw [spelled]
    change (memSlice _ 0 64).map lowerDigit = _
    rw [block, Nat.sub_zero, List.drop_zero, List.take_append_of_le_length
      (Nat.le_of_eq size.symm), List.take_of_length_le (Nat.le_of_eq size)]

theorem importedKey_bytesToHex
    (stale : Mem) {key : Bytes} (length : key.length = 32) :
    importedKey stale (bytesToHex key) = some key := by
  unfold importedKey
  rw [length_bytesToHex, length, if_neg (by decide),
    hexToBytes_bytesToHex stale (Nat.le_of_eq length.symm),
    List.take_of_length_le (Nat.le_of_eq length)]

theorem importedKey_isSome_iff
    (stale : Mem) {text : Bytes} (size : text.length = 64)
    (noNul : 0 ∉ text) :
    (importedKey stale text).isSome = true ↔
      ∀ i, i < 32 → DigitPair text i ∨ MarkedPair text i := by
  unfold importedKey
  rw [if_neg (not_not.mpr size), hexToBytes_isSome_iff]
  exact forall₂_congr fun i inside =>
    hexPair_text_isSome_iff stale noNul (by omega)

theorem DigitPair.not_marked
    {text : Bytes} {i : Nat} (digits : DigitPair text i) :
    ¬ MarkedPair text i := by
  intro marked
  have unmarked := (hexDigit_start digits.1).1
  rw [marked.1] at unmarked
  cases unmarked

/-- Only a string that is taken without being hexadecimal goes wrong. -/
theorem takenExactly_iff
    (stale : Mem) {text : Bytes} (size : text.length = 64) :
    TakenExactly stale text ↔
      ((importedKey stale text).isSome = true →
        ∀ ch ∈ text, isDigitOf 16 ch = true) := by
  constructor
  · rintro ⟨exact_, -⟩
    exact exact_.mp
  · intro onlyDigits
    refine ⟨⟨onlyDigits, fun digits => ?_⟩, fun key given => ?_⟩
    · obtain ⟨key, given, -⟩ := importedKey_digits stale size digits
      rw [given]
      rfl
    · have digits := onlyDigits (by rw [given]; rfl)
      obtain ⟨other, read, spelled⟩ := importedKey_digits stale size digits
      rw [given] at read
      cases read
      exact spelled

/-- Of 64 characters those strings are taken exactly that have no mark before a
digit in any pair, or else a pair that is neither this nor two digits; and
every key is taken from its own digits. -/
theorem hexKey_taken_exactly_iff
    (stale : Mem) (text : Bytes) (size : text.length = 64)
    (noNul : 0 ∉ text) :
    (TakenExactly stale text ↔
      (∀ i, i < 32 → ¬ MarkedPair text i) ∨
        ∃ i, i < 32 ∧ ¬ DigitPair text i ∧ ¬ MarkedPair text i) ∧
      ∀ key : Bytes, key.length = 32 →
        importedKey stale (bytesToHex key) = some key := by
  have pairs :
      (∀ ch ∈ text, isDigitOf 16 ch = true) ↔
        ∀ i, i < 32 → DigitPair text i :=
    forall_digit_iff size
  refine ⟨?_, fun key length => importedKey_bytesToHex stale length⟩
  rw [takenExactly_iff stale size, importedKey_isSome_iff stale size noNul,
    pairs]
  constructor
  · intro onlyDigits
    by_cases free : ∀ i, i < 32 → ¬ MarkedPair text i
    · exact Or.inl free
    · refine Or.inr ?_
      by_contra none
      have accepted : ∀ i, i < 32 → DigitPair text i ∨ MarkedPair text i := by
        intro i inside
        by_contra neither
        rw [not_or] at neither
        exact none ⟨i, inside, neither⟩
      exact free fun i inside => (onlyDigits accepted i inside).not_marked
  · rintro (free | ⟨i, inside, noDigits, noMark⟩) accepted
    · exact fun i inside =>
        (accepted i inside).resolve_right (free i inside)
    · rcases accepted i inside with digits | marked
      · exact absurd digits noDigits
      · exact absurd marked noMark

/-- A mark before a digit is harmless beside a pair that is refused. -/
theorem hexKey_taken_exactly_iff_refused :
    TakenExactly (fun _ => 0) (43 :: 102 :: List.replicate 62 120) :=
  ((hexKey_taken_exactly_iff (fun _ => 0) (43 :: 102 :: List.replicate 62 120)
    (by decide) (by decide)).1).mpr
      (Or.inr ⟨1, by decide, by unfold DigitPair; decide,
        by unfold MarkedPair; decide⟩)

/-- `+f` and 62 zeros are taken for a key. -/
theorem hexKey_taken_with_sign :
    importedKey (fun _ => 0) (43 :: 102 :: List.replicate 62 48) =
        some (15 :: List.replicate 31 0) ∧
      ¬ TakenExactly (fun _ => 0) (43 :: 102 :: List.replicate 62 48) := by
  have taken :
      importedKey (fun _ => 0) (43 :: 102 :: List.replicate 62 48) =
        some (15 :: List.replicate 31 0) := by
    decide +kernel
  refine ⟨taken, fun exact_ => ?_⟩
  have digit := exact_.1.mp (by rw [taken]; rfl) 43 List.mem_cons_self
  exact absurd digit (by decide)

end PqComm
