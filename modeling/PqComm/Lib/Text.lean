import Mathlib.Data.List.DropRight
import Mathlib.Data.List.TakeWhile
import PqComm.Lib.Bytes

/-!
# Reading and writing text

The conversions of the C library that a line-oriented file format is written
and read with, on byte strings without their terminator: `%d` and `%02x` of
`printf`, `strtol`, the conversions `%d`, `%Ns` and `%N[^c]` of `sscanf`, and
the pieces that repeated calls of `fgets` split a file into.
-/

namespace PqComm.Lib

/-! ## Characters -/

/-- The bytes of a string of the program. -/
def ascii (s : String) : Bytes :=
  s.toList.map fun ch => UInt8.ofNat ch.toNat

/-- A property of the characters of a fixed text is checked one by one. -/
theorem forall_mem_of_all
    {p : UInt8 → Prop} [DecidablePred p] {text : Bytes}
    (all : (text.all fun ch => decide (p ch)) = true) :
    ∀ ch ∈ text, p ch :=
  fun ch member => of_decide_eq_true (List.all_eq_true.mp all ch member)

/-- `isspace`. -/
def isSpace (ch : UInt8) : Bool :=
  ch == 32 || (9 ≤ ch && ch ≤ 13)

/-- The value of a digit in a base up to sixteen. -/
def digitValue (ch : UInt8) : Nat :=
  if 48 ≤ ch ∧ ch ≤ 57 then ch.toNat - 48
  else if 97 ≤ ch ∧ ch ≤ 102 then ch.toNat - 87
  else if 65 ≤ ch ∧ ch ≤ 70 then ch.toNat - 55
  else 16

def isDigitOf (base : Nat) (ch : UInt8) : Bool :=
  digitValue ch < base

/-- The text `%d` prints for a number that is not negative. -/
def decimal (n : Nat) : Bytes :=
  (Nat.toDigits 10 n).map fun ch => UInt8.ofNat ch.toNat

/-- One of the two digits `%02x` prints. -/
def hexDigit (n : Nat) : UInt8 :=
  if n < 10 then UInt8.ofNat (48 + n) else UInt8.ofNat (87 + n)

/-- The text `%02x` prints for a byte. -/
def hexByte (byte : UInt8) : Bytes :=
  [hexDigit (byte.toNat / 16), hexDigit (byte.toNat % 16)]

def splitSign : Bytes → Bool × Bytes
  | [] => (false, [])
  | ch :: rest =>
      if ch = 45 then (true, rest)
      else if ch = 43 then (false, rest)
      else (false, ch :: rest)

/-- `0x` belongs to a number only when a digit follows it. -/
def dropHexMark : Bytes → Bytes
  | zero :: x :: ch :: rest =>
      if zero = 48 ∧ (x = 120 ∨ x = 88) ∧ isDigitOf 16 ch then ch :: rest
      else zero :: x :: ch :: rest
  | text => text

/-- The number at the start of a text and the text behind it, as `strtol` and
`%d` read it; `none` when there is no digit. -/
def strtol (base : Nat) (text : Bytes) : Option (Int × Bytes) :=
  let signed := splitSign (text.dropWhile isSpace)
  let body := if base = 16 then dropHexMark signed.2 else signed.2
  let digits := body.takeWhile (isDigitOf base)
  if digits.isEmpty then
    none
  else
    let value := digits.foldl (fun n ch => base * n + digitValue ch) 0
    some
      (if signed.1 then -(value : Int) else value, body.drop digits.length)

/-- The `long` that `strtol` returns for a number that may not fit. -/
def clampLong (value : Int) : Int :=
  if value < -9223372036854775808 then -9223372036854775808
  else if 9223372036854775807 < value then 9223372036854775807
  else value

/-- `atoi`: the `long` that `strtol` gives, cast to `int`. -/
def atoi (text : Bytes) : Int32 :=
  match strtol 10 text with
  | none => 0
  | some (value, _) => Int32.ofInt (clampLong value)

/-! ## Conversions of `sscanf` -/

/-- `%Ns`: the word behind the white space, cut at `width` characters. -/
def scanWord (width : Nat) (text : Bytes) : Option (Bytes × Bytes) :=
  let body := text.dropWhile isSpace
  let word := (body.take width).takeWhile fun ch => !isSpace ch
  if word.isEmpty then none else some (word, body.drop word.length)

/-- `%N[^c]`: the characters up to `stop`, at most `width` of them. -/
def scanUntil (width : Nat) (stop : UInt8) (text : Bytes) :
    Option (Bytes × Bytes) :=
  let field := (text.take width).takeWhile fun ch => ch != stop
  if field.isEmpty then none else some (field, text.drop field.length)

/-- A character of the format that is not white space. -/
def scanChar (ch : UInt8) : Bytes → Option Bytes
  | [] => none
  | first :: rest => if first = ch then some rest else none

/-! ## Lines of a file -/

/-- The pieces that a loop over `fgets` with `limit` characters of room reads:
a piece ends behind a line feed or when it is full.  `room` is what is left
for the piece `piece` that has been started. -/
def fgetsLoop (limit : Nat) : Nat → Bytes → Bytes → List Bytes
  | _, piece, [] => if piece.isEmpty then [] else [piece]
  | room, piece, ch :: rest =>
      if ch = 10 ∨ room ≤ 1 then
        (piece ++ [ch]) :: fgetsLoop limit limit [] rest
      else
        fgetsLoop limit (room - 1) (piece ++ [ch]) rest

def fgetsPieces (limit : Nat) (text : Bytes) : List Bytes :=
  fgetsLoop limit limit [] text

/-- Lines as they are written, each with its line feed. -/
def unlines (lines : List Bytes) : Bytes :=
  lines.flatMap fun line => line ++ [10]

/-- The string in a buffer ends at its first NUL. -/
def cText (text : Bytes) : Bytes :=
  text.takeWhile (· != 0)

/-! ## Cutting at a character -/

/-- A text that contains a character is what stands before its first
occurrence, the character, and the rest. -/
theorem split_at_stop
    {stop : UInt8} {text : Bytes} (member : stop ∈ text) :
    text =
        text.takeWhile (· != stop) ++
          stop :: (text.dropWhile (· != stop)).tail ∧
      stop ∉ text.takeWhile (· != stop) := by
  have inside : stop ∉ text.takeWhile (· != stop) := by
    intro early
    have other := List.mem_takeWhile_imp early
    exact bne_iff_ne.mp other rfl
  refine ⟨?_, inside⟩
  have whole :=
    List.takeWhile_append_dropWhile (p := (· != stop)) (l := text)
  cases behind : text.dropWhile (· != stop) with
  | nil =>
      rw [behind, List.append_nil] at whole
      rw [whole] at inside
      exact absurd member inside
  | cons first rest =>
      have stopped := List.head?_dropWhile_not (· != stop) text
      rw [behind] at stopped
      have same : first = stop := by
        simpa using stopped
      rw [behind, same] at whole
      exact whole.symm

theorem rdropWhile_append
    {α : Type*} (p : α → Bool) (left right : List α) :
    (left ++ right).rdropWhile p =
      if right.rdropWhile p = [] then left.rdropWhile p
      else left ++ right.rdropWhile p := by
  unfold List.rdropWhile
  rw [List.reverse_append, List.dropWhile_append]
  by_cases all : right.reverse.dropWhile p = []
  · rw [if_pos (by rw [all]; rfl), if_pos (by rw [all]; rfl)]
  · rw [if_neg (by simpa using all), if_neg (by simpa using all),
      List.reverse_append, List.reverse_reverse]

/-! ## What is read of what was printed -/

section Words

variable {p : UInt8 → Bool} {word rest : Bytes}
  (inside : ∀ ch ∈ word, p ch = true)
  (behind : ∀ ch ∈ rest.head?, p ch = false)
include inside behind

/-- What is read of a word is the word, cut at the width. -/
theorem takeWhile_take_word (width : Nat) :
    ((word ++ rest).take width).takeWhile p = word.take width := by
  have stopped (n : Nat) : (rest.take n).takeWhile p = [] := by
    cases n with
    | zero =>
        rw [List.take_zero, List.takeWhile_nil]
    | succ n =>
        cases rest with
        | nil =>
            rfl
        | cons first others =>
            have outside : p first = false := behind first rfl
            rw [List.take_succ_cons, List.takeWhile_cons_of_neg]
            rw [outside]
            exact Bool.false_ne_true
  have kept : ∀ ch ∈ word.take width, p ch = true := fun ch member =>
    inside ch (List.mem_of_mem_take member)
  rw [List.take_append, List.takeWhile_append_of_pos kept, stopped,
    List.append_nil]

end Words

theorem isDigitOf_digitChar {n : Nat} (small : n < 10) :
    isDigitOf 10 (UInt8.ofNat (Nat.digitChar n).toNat) = true ∧
      digitValue (UInt8.ofNat (Nat.digitChar n).toNat) = n := by
  have all :
      ∀ k : Fin 10,
        isDigitOf 10 (UInt8.ofNat (Nat.digitChar k.val).toNat) = true ∧
          digitValue (UInt8.ofNat (Nat.digitChar k.val).toNat) = k.val := by
    decide
  exact all ⟨n, small⟩

theorem decimal_of_lt {n : Nat} (small : n < 10) :
    decimal n = [UInt8.ofNat (Nat.digitChar n).toNat] := by
  rw [decimal, Nat.toDigits_of_lt_base small]
  rfl

theorem decimal_of_le {n : Nat} (large : 10 ≤ n) :
    decimal n =
      decimal (n / 10) ++ [UInt8.ofNat (Nat.digitChar (n % 10)).toNat] := by
  rw [decimal, Nat.toDigits_of_base_le (by decide) large, List.map_append]
  rfl

/-- The digits of a number, and that they give its value. -/
theorem decimal_digits (n : Nat) :
    (∀ ch ∈ decimal n, isDigitOf 10 ch = true) ∧
      (decimal n).foldl (fun n ch => 10 * n + digitValue ch) 0 = n := by
  induction n using Nat.strongRecOn with
  | ind n inductionHypothesis =>
      by_cases small : n < 10
      · obtain ⟨digit, value⟩ := isDigitOf_digitChar small
        rw [decimal_of_lt small]
        refine ⟨fun ch member => ?_, ?_⟩
        · rw [List.mem_singleton.mp member]
          exact digit
        · rw [List.foldl_cons, List.foldl_nil, value]
          exact Nat.zero_add n
      · have large : 10 ≤ n := Nat.le_of_not_lt small
        obtain ⟨digits, value⟩ := inductionHypothesis (n / 10) (by omega)
        obtain ⟨lastDigit, lastValue⟩ :=
          isDigitOf_digitChar (Nat.mod_lt n (by decide : 10 > 0))
        rw [decimal_of_le large]
        refine ⟨fun ch member => ?_, ?_⟩
        · rcases List.mem_append.mp member with early | final
          · exact digits ch early
          · rw [List.mem_singleton.mp final]
            exact lastDigit
        · rw [List.foldl_append, value, List.foldl_cons, List.foldl_nil,
            lastValue]
          omega

theorem takeWhile_take_field
    (width : Nat) {stop : UInt8} {field : Bytes} (rest : Bytes)
    (inside : stop ∉ field) :
    ((field ++ stop :: rest).take width).takeWhile (fun ch => ch != stop) =
      field.take width := by
  apply takeWhile_take_word
  · intro ch member
    exact bne_iff_ne.mpr fun same => inside (same ▸ member)
  · intro ch first
    cases first
    exact bne_self_eq_false _

/-- `%N[^c]` cuts a field at the width; the rest of a longer field stays to be
read. -/
theorem scanUntil_cut
    {width : Nat} {stop : UInt8} {field : Bytes} (rest : Bytes)
    (positive : 0 < width) (filled : field ≠ []) (inside : stop ∉ field) :
    scanUntil width stop (field ++ stop :: rest) =
      some (field.take width, field.drop width ++ stop :: rest) := by
  have start : field.take width ≠ [] := by
    rw [Ne, List.take_eq_nil_iff, not_or]
    exact ⟨Nat.ne_of_gt positive, filled⟩
  have split :
      field ++ stop :: rest =
        field.take width ++ (field.drop width ++ stop :: rest) := by
    rw [← List.append_assoc, List.take_append_drop]
  unfold scanUntil
  rw [takeWhile_take_field width rest inside]
  dsimp only
  rw [if_neg (by simpa using start), split, List.drop_left]

/-- `%N[^c]` reads a field up to the character that ends it. -/
theorem scanUntil_field
    {width : Nat} {stop : UInt8} {field : Bytes} (rest : Bytes)
    (filled : field ≠ []) (fits : field.length ≤ width)
    (inside : stop ∉ field) :
    scanUntil width stop (field ++ stop :: rest) =
      some (field, stop :: rest) := by
  have positive : 0 < width :=
    Nat.lt_of_lt_of_le (List.length_pos_of_ne_nil filled) fits
  rw [scanUntil_cut rest positive filled inside,
    List.take_of_length_le fits, List.drop_of_length_le fits]
  rfl

/-- `%Ns` skips white space and cuts the word at the width; the rest of a
longer word stays to be read. -/
theorem scanWord_word
    (width : Nat) {pad word rest : Bytes} (positive : 0 < width)
    (blank : ∀ ch ∈ pad, isSpace ch = true) (filled : word ≠ [])
    (visible : ∀ ch ∈ word, isSpace ch = false)
    (behind : ∀ ch ∈ rest.head?, isSpace ch = true) :
    scanWord width (pad ++ (word ++ rest)) =
      some (word.take width, word.drop width ++ rest) := by
  obtain ⟨first, others, rfl⟩ := List.exists_cons_of_ne_nil filled
  have start :
      (pad ++ (first :: others ++ rest)).dropWhile isSpace =
        first :: others ++ rest := by
    rw [List.dropWhile_append_of_pos blank, List.cons_append,
      List.dropWhile_cons_of_neg]
    rw [visible first List.mem_cons_self]
    exact Bool.false_ne_true
  have inside : ∀ ch ∈ first :: others, (!isSpace ch) = true := by
    intro ch member
    rw [visible ch member]
    rfl
  have outside : ∀ ch ∈ rest.head?, (!isSpace ch) = false := by
    intro ch member
    rw [behind ch member]
    rfl
  have cut : ((first :: others).take width).isEmpty = false := by
    obtain ⟨less, rfl⟩ := Nat.exists_eq_add_of_lt positive
    rw [Nat.zero_add, List.take_succ_cons]
    rfl
  unfold scanWord
  rw [start]
  dsimp only
  rw [takeWhile_take_word inside outside, cut, if_neg Bool.false_ne_true]
  have split :
      first :: others ++ rest =
        (first :: others).take width ++
          ((first :: others).drop width ++ rest) := by
    rw [← List.append_assoc, List.take_append_drop]
  rw [split, List.drop_left]

/-! ## Lines of a file that is written line by line -/

section Lines

variable {limit : Nat}

theorem fgetsLoop_line
    (room : Nat) (piece line rest : Bytes) :
    fgetsLoop limit room piece (line ++ 10 :: rest) =
      fgetsLoop limit room piece (line ++ [10]) ++
        fgetsLoop limit limit [] rest := by
  induction line generalizing room piece with
  | nil =>
      rw [List.nil_append, List.nil_append, fgetsLoop, fgetsLoop,
        if_pos (Or.inl rfl), if_pos (Or.inl rfl)]
      rfl
  | cons ch line inductionHypothesis =>
      rw [List.cons_append, List.cons_append, fgetsLoop, fgetsLoop]
      split
      · rw [inductionHypothesis, List.cons_append]
      · rw [inductionHypothesis]

/-- A line that was written whole does not run into the next one. -/
theorem fgetsPieces_line (line rest : Bytes) :
    fgetsPieces limit (line ++ 10 :: rest) =
      fgetsPieces limit (line ++ [10]) ++ fgetsPieces limit rest :=
  fgetsLoop_line limit [] line rest

/-- The first piece of a line is the line, cut at the room there is. -/
theorem fgetsLoop_first
    {room : Nat} (piece : Bytes) {line : Bytes} (positive : 0 < room)
    (single : 10 ∉ line) :
    ∃ later,
      fgetsLoop limit room piece (line ++ [10]) =
        (piece ++ (line ++ [10]).take room) :: later ∧
      (line.length < room → later = []) := by
  induction line generalizing room piece with
  | nil =>
      refine ⟨[], ?_, fun _ => rfl⟩
      rw [List.nil_append, fgetsLoop, if_pos (Or.inl rfl)]
      rw [List.take_of_length_le positive]
      rfl
  | cons ch line inductionHypothesis =>
      rw [List.mem_cons, not_or] at single
      obtain ⟨notFeed, others⟩ := single
      rw [List.cons_append, fgetsLoop]
      by_cases last : room ≤ 1
      · have one : room = 1 := Nat.le_antisymm last positive
        subst one
        rw [if_pos (Or.inr last)]
        exact ⟨_, rfl, fun short => absurd short (by simp)⟩
      · obtain ⟨more, rfl⟩ : ∃ more, room = more + 1 + 1 :=
          ⟨room - 2, by omega⟩
        rw [if_neg (by simp [Ne.symm notFeed])]
        obtain ⟨later, read, short⟩ :=
          inductionHypothesis (piece ++ [ch]) (Nat.succ_pos more) others
        refine ⟨later, ?_, fun fits => short (by simpa using fits)⟩
        rw [Nat.add_sub_cancel, read, List.take_succ_cons,
          List.append_assoc]
        rfl

theorem fgetsPieces_first
    (limit : Nat) {line : Bytes} (positive : 0 < limit) (single : 10 ∉ line) :
    ∃ later,
      fgetsPieces limit (line ++ [10]) =
        (line ++ [10]).take limit :: later ∧
      (line.length < limit → later = []) :=
  fgetsLoop_first [] positive single

/-- Lines that fit are read as they were written. -/
theorem fgetsPieces_unlines_append
    {lines : List Bytes} (rest : Bytes) (single : ∀ line ∈ lines, 10 ∉ line)
    (fits : ∀ line ∈ lines, line.length < limit) :
    fgetsPieces limit (unlines lines ++ rest) =
      (lines.map fun line => line ++ [10]) ++ fgetsPieces limit rest := by
  induction lines with
  | nil => rfl
  | cons line lines inductionHypothesis =>
      rw [List.forall_mem_cons] at single fits
      obtain ⟨later, read, short⟩ :=
        fgetsPieces_first limit (Nat.zero_lt_of_lt fits.1) single.1
      have whole :
          unlines (line :: lines) ++ rest =
            line ++ 10 :: (unlines lines ++ rest) := by
        rw [unlines, List.flatMap_cons, List.append_assoc, List.append_assoc]
        rfl
      rw [whole, fgetsPieces_line, read, short fits.1,
        inductionHypothesis single.2 fits.2, List.map_cons,
        List.take_of_length_le]
      · rfl
      · rw [List.length_append]
        exact fits.1

theorem fgetsPieces_unlines
    {lines : List Bytes} (single : ∀ line ∈ lines, 10 ∉ line)
    (fits : ∀ line ∈ lines, line.length < limit) :
    fgetsPieces limit (unlines lines) = lines.map fun line => line ++ [10] := by
  have read := fgetsPieces_unlines_append [] single fits
  rw [List.append_nil] at read
  rw [read]
  exact List.append_nil _

theorem fgetsLoop_final
    {room : Nat} (piece : Bytes) {final : Bytes} (single : 10 ∉ final)
    (fits : final.length < room) :
    fgetsLoop limit room piece final =
      if (piece ++ final).isEmpty then [] else [piece ++ final] := by
  induction final generalizing room piece with
  | nil =>
      rw [fgetsLoop, List.append_nil]
  | cons ch final inductionHypothesis =>
      rw [List.mem_cons, not_or] at single
      rw [List.length_cons] at fits
      rw [fgetsLoop, if_neg, inductionHypothesis _ single.2 (by omega),
        List.append_assoc, List.singleton_append]
      rintro (feed | full)
      · exact single.1 feed.symm
      · omega

/-- What stands behind the last line feed is a piece when there is anything. -/
theorem fgetsPieces_final
    {final : Bytes} (single : 10 ∉ final) (fits : final.length < limit) :
    fgetsPieces limit final = if final.isEmpty then [] else [final] :=
  fgetsLoop_final [] single fits

end Lines

theorem cText_of_not_mem {text : Bytes} (noNul : 0 ∉ text) :
    cText text = text := by
  refine List.takeWhile_eq_self_iff.mpr fun ch member => ?_
  exact bne_iff_ne.mpr fun zero => noNul (zero ▸ member)

theorem cText_append {text : Bytes} (rest : Bytes) (noNul : 0 ∉ text) :
    cText (text ++ rest) = text ++ cText rest := by
  refine List.takeWhile_append_of_pos fun ch member => ?_
  exact bne_iff_ne.mpr fun zero => noNul (zero ▸ member)

theorem cText_append_of_mem {text : Bytes} (rest : Bytes) (nul : 0 ∈ text) :
    cText (text ++ rest) = cText text := by
  rw [cText, List.takeWhile_append, if_neg]
  · rfl
  · intro whole
    have all := List.takeWhile_eq_self_iff.mp
      ((List.takeWhile_prefix _).eq_of_length whole)
    exact bne_iff_ne.mp (all 0 nul) rfl

/-! ## Words -/

/-- The characters of a text before its first white space. -/
def firstWord (text : Bytes) : Bytes :=
  text.takeWhile fun ch => !isSpace ch

theorem firstWord_eq_self_iff {text : Bytes} :
    firstWord text = text ↔ ∀ ch ∈ text, isSpace ch = false := by
  rw [firstWord, List.takeWhile_eq_self_iff]
  exact forall₂_congr fun ch _ => by rw [Bool.not_eq_true']

/-- `%Ns` reads the first word of a text that begins with one. -/
theorem scanWord_firstWord
    {width : Nat} {text : Bytes} (fits : text.length ≤ width)
    (visible : ∃ ch ∈ text.head?, isSpace ch = false) :
    ∃ rest, scanWord width (text ++ [10]) = some (firstWord text, rest) := by
  obtain ⟨ch, first, shown⟩ := visible
  obtain ⟨others, shape⟩ := List.head?_eq_some_iff.mp first
  have filled : firstWord text ≠ [] := by
    rw [shape, firstWord, List.takeWhile_cons_of_pos (by simp [shown])]
    exact List.cons_ne_nil _ _
  have positive : 0 < width := by
    rw [shape] at fits
    exact Nat.lt_of_lt_of_le (Nat.succ_pos _) fits
  have short : (firstWord text).length ≤ width :=
    (List.takeWhile_prefix _).length_le.trans fits
  have split :
      text ++ [10] =
        [] ++ (firstWord text ++
          (text.dropWhile (fun ch => !isSpace ch) ++ [10])) := by
    rw [List.nil_append, ← List.append_assoc, firstWord,
      List.takeWhile_append_dropWhile]
  have behind :
      ∀ ch ∈ (text.dropWhile (fun ch => !isSpace ch) ++ [10]).head?,
        isSpace ch = true := by
    intro ch member
    have stopped := List.head?_dropWhile_not (fun ch => !isSpace ch) text
    cases later : text.dropWhile (fun ch => !isSpace ch) with
    | nil =>
        rw [later] at member
        cases member
        rfl
    | cons stop others =>
        rw [later] at member stopped
        cases member
        simpa using stopped
  rw [split, scanWord_word width positive (by simp) filled
    (fun ch member => by simpa using List.mem_takeWhile_imp member) behind,
    List.take_of_length_le short]
  exact ⟨_, rfl⟩

end PqComm.Lib
