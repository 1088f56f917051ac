import PqComm.Config.Toml

/-!
# Blanks in a configuration file

`trim` moves past leading blanks with its own pointer only, so a line that
begins with a blank keeps it, and such a line is neither a header nor a known
key.  Blanks around the first `=` of a line are harmless.
-/

namespace PqComm

open Lib

/-! ## Putting blanks into a file -/

/-- A line with `=` that is neither a comment nor a header. -/
def isKeyLine (line : Bytes) : Bool :=
  line.contains 61 &&
    (line.dropWhile isBlank).head?.all fun ch => ch != 35 && ch != 91

/-- A line with blanks around its first `=`. -/
def spaced (before after line : Bytes) : Bytes :=
  if isKeyLine line then
    line.takeWhile (· != 61) ++ before ++
      61 :: (after ++ (line.dropWhile (· != 61)).tail)
  else
    line

/-- A line of a file and the blanks that are put into it. -/
structure BlankedLine where
  line : Bytes
  lead : Bytes
  before : Bytes
  after : Bytes
  single : 10 ∉ line
  fits : line.length < 255
  blank : ∀ ch ∈ lead ++ before ++ after, isBlank ch = true
  blankedFits : (lead ++ spaced before after line).length < 255

def BlankedLine.blanked (row : BlankedLine) : Bytes :=
  row.lead ++ spaced row.before row.after row.line

/-- A file: its lines, and what stands behind the last line feed. -/
structure BlankedFile where
  rows : List BlankedLine
  final : BlankedLine

namespace BlankedFile

def lines (file : BlankedFile) : List BlankedLine :=
  file.rows ++ [file.final]

/-- The file without the blanks. -/
def original (file : BlankedFile) : Bytes :=
  unlines (file.rows.map BlankedLine.line) ++ file.final.line

def blanked (file : BlankedFile) : Bytes :=
  unlines (file.rows.map BlankedLine.blanked) ++ file.final.blanked

/-- The lines that get no blank in front. -/
def flush (file : BlankedFile) : List BlankedLine :=
  file.lines.filter fun row => row.lead.isEmpty

end BlankedFile

/-! ## Characters -/

theorem isBlank_iff {ch : UInt8} : isBlank ch = true ↔ ch = 32 ∨ ch = 9 := by
  rw [isBlank, Bool.or_eq_true, beq_iff_eq, beq_iff_eq]

theorem isSpace_of_isBlank {ch : UInt8} (blank : isBlank ch = true) :
    isSpace ch = true := by
  rcases isBlank_iff.mp blank with rfl | rfl
  · rfl
  · rfl

theorem isTrailing_of_isBlank {ch : UInt8} (blank : isBlank ch = true) :
    isTrailing ch = true := by
  rcases isBlank_iff.mp blank with rfl | rfl
  · rfl
  · rfl

theorem ne_of_isBlank
    {ch other : UInt8} (blank : isBlank ch = true)
    (visible : isBlank other = false) : ch ≠ other := by
  rintro rfl
  rw [blank] at visible
  cases visible

theorem not_mem_of_blank
    {text : Bytes} (blank : ∀ ch ∈ text, isBlank ch = true) {other : UInt8}
    (visible : isBlank other = false) : other ∉ text :=
  fun member => ne_of_isBlank (blank other member) visible rfl

/-! ## `trim` -/

theorem trim_of_blank
    {ch : UInt8} (text : Bytes) (blank : isBlank ch = true) :
    trim (ch :: text) = ch :: trim text := by
  unfold trim
  rw [List.takeWhile_cons_of_pos blank, List.dropWhile_cons_of_pos blank]
  rfl

theorem trim_of_visible
    {ch : UInt8} (text : Bytes) (visible : isBlank ch = false) :
    trim (ch :: text) = ch :: text.rdropWhile isTrailing := by
  have noBlank : ¬ isBlank ch = true := by
    rw [visible]
    exact Bool.false_ne_true
  unfold trim
  rw [List.takeWhile_cons_of_neg noBlank, List.dropWhile_cons_of_neg noBlank]
  rfl

/-- What is cut off at the end does not reach over another character. -/
theorem rdropWhile_append_cons
    {stop : UInt8} (left right : Bytes) (stays : isTrailing stop = false) :
    (left ++ stop :: right).rdropWhile isTrailing =
      left ++ stop :: right.rdropWhile isTrailing := by
  have kept :
      (stop :: right).rdropWhile isTrailing =
        stop :: right.rdropWhile isTrailing := by
    have single : [stop].rdropWhile isTrailing = [stop] := by
      rw [List.rdropWhile_singleton, stays]
      rfl
    have read := rdropWhile_append isTrailing [stop] right
    rw [List.singleton_append, single, List.singleton_append] at read
    rw [read]
    split
    · rename_i empty
      rw [empty]
    · rfl
  rw [rdropWhile_append, if_neg, kept]
  rw [kept]
  exact List.cons_ne_nil _ _

theorem rdropWhile_append_blank
    (text : Bytes) {pad : Bytes} (blank : ∀ ch ∈ pad, isBlank ch = true) :
    (text ++ pad).rdropWhile isTrailing = text.rdropWhile isTrailing := by
  rw [rdropWhile_append, if_pos]
  exact List.rdropWhile_eq_nil_iff.mpr fun ch member =>
    isTrailing_of_isBlank (blank ch member)

/-- Blanks before a value do not change where it starts. -/
theorem dropWhile_blank_rdropWhile
    {pad : Bytes} (text : Bytes) (blank : ∀ ch ∈ pad, isBlank ch = true) :
    ((pad ++ text).rdropWhile isTrailing).dropWhile isSpace =
      (text.rdropWhile isTrailing).dropWhile isSpace := by
  rw [rdropWhile_append]
  by_cases empty : text.rdropWhile isTrailing = []
  · rw [if_pos empty, empty, List.rdropWhile_eq_nil_iff.mpr]
    exact fun ch member => isTrailing_of_isBlank (blank ch member)
  · rw [if_neg empty, List.dropWhile_append_of_pos]
    exact fun ch member => isSpace_of_isBlank (blank ch member)

/-! ## The pattern of `parse_line` -/

/-- A key and what stands behind its `=`. -/
theorem scanSetting_field
    {field : Bytes} (text : Bytes) (filled : field ≠ [])
    (inside : 61 ∉ field) :
    scanSetting (field ++ 61 :: text) =
      if (field.drop 63).all isSpace = true then
        (scanUntil 191 35 (text.dropWhile isSpace)).map fun val =>
          (field.take 63, val.1)
      else
        none := by
  unfold scanSetting
  rw [scanUntil_cut text (by decide) filled inside]
  dsimp only [Option.bind_eq_bind, Option.bind_some]
  by_cases white : (field.drop 63).all isSpace = true
  · rw [if_pos white,
      List.dropWhile_append_of_pos (List.all_eq_true.mp white),
      List.dropWhile_cons_of_neg (by decide), scanChar, if_pos rfl]
    dsimp only [Option.bind_some]
    cases scanUntil 191 35 (text.dropWhile isSpace) with
    | none =>
        rfl
    | some val =>
        rfl
  · have stopped : (field.drop 63).dropWhile isSpace ≠ [] := by
      intro empty
      exact white (List.all_eq_true.mpr (List.dropWhile_eq_nil_iff.mp empty))
    obtain ⟨first, others, shape⟩ := List.exists_cons_of_ne_nil stopped
    have member : first ∈ field := by
      apply List.mem_of_mem_drop
      apply (List.dropWhile_suffix isSpace).subset
      rw [shape]
      exact List.mem_cons_self
    have other : first ≠ 61 := fun sign => inside (sign ▸ member)
    rw [if_neg white, List.dropWhile_append, if_neg (by simp [shape]), shape,
      List.cons_append, scanChar, if_neg other]
    rfl

theorem scanSetting_of_not_mem
    {line : Bytes} (noSign : 61 ∉ line) : scanSetting line = none := by
  unfold scanSetting
  cases read : scanUntil 63 61 line with
  | none =>
      rfl
  | some field =>
      have behind : 61 ∉ field.2 := by
        unfold scanUntil at read
        dsimp only at read
        split at read
        · cases read
        · cases read
          exact fun member => noSign (List.mem_of_mem_drop member)
      dsimp only [Option.bind_eq_bind, Option.bind_some]
      cases later : field.2.dropWhile isSpace with
      | nil =>
          rfl
      | cons first others =>
          have member : first ∈ field.2 := by
            apply (List.dropWhile_suffix isSpace).subset
            rw [later]
            exact List.mem_cons_self
          have other : first ≠ 61 := fun sign => behind (sign ▸ member)
          rw [scanChar, if_neg other]
          rfl

/-- No name of a setting begins with a blank. -/
theorem settingOf_of_blank
    {ch : UInt8} (sectionName key : Bytes) (blank : isBlank ch = true) :
    settingOf sectionName (ch :: key) = none := by
  have other {text : Bytes} (visible : text.head?.any isBlank = false) :
      ch :: key ≠ text := by
    rintro rfl
    exact ne_of_isBlank blank visible rfl
  unfold settingOf
  split_ifs
  all_goals first | rfl | exact absurd ‹ch :: key = _› (other (by decide))

/-! ## Effects -/

section Effects

variable (sectionName : Bytes)

/-- The effect of a line whose key is `key` and whose value begins `text`. -/
def valueEffect (key text : Bytes) : LineEffect :=
  match settingOf sectionName key with
  | none => .idle
  | some setting =>
      match scanUntil 191 35 text with
      | none => .idle
      | some (val, _) => .sets setting (trim val)

theorem keyEffect_field
    {field : Bytes} (text : Bytes) (filled : field ≠ [])
    (inside : 61 ∉ field) :
    keyEffect sectionName (field ++ 61 :: text) =
      if (field.drop 63).all isSpace = true then
        valueEffect sectionName (trim (field.take 63))
          (text.dropWhile isSpace)
      else
        .idle := by
  unfold keyEffect valueEffect
  rw [scanSetting_field text filled inside]
  by_cases white : (field.drop 63).all isSpace = true
  · rw [if_pos white, if_pos white]
    cases scanUntil 191 35 (text.dropWhile isSpace) with
    | none =>
        cases settingOf sectionName (trim (field.take 63)) with
        | none =>
            rfl
        | some setting =>
            rfl
    | some val =>
        rfl
  · rw [if_neg white, if_neg white]

/-- A line whose key begins with a blank gives no setting a value. -/
theorem keyEffect_of_blank
    {ch : UInt8} (text : Bytes) (blank : isBlank ch = true) :
    keyEffect sectionName (ch :: text) = .idle := by
  by_cases sign : 61 ∈ ch :: text
  · have first : (ch != 61) = true :=
      bne_iff_ne.mpr (ne_of_isBlank blank (by decide))
    obtain ⟨shape, inside⟩ := split_at_stop sign
    rw [List.takeWhile_cons_of_pos (p := (· != 61)) first] at shape inside
    rw [shape, keyEffect_field sectionName _ (List.cons_ne_nil _ _) inside,
      List.take_succ_cons, trim_of_blank _ blank]
    unfold valueEffect
    rw [settingOf_of_blank sectionName _ blank]
    exact ite_self _
  · unfold keyEffect
    rw [scanSetting_of_not_mem sign]

theorem trimmedEffect_of_blank
    {ch : UInt8} (text : Bytes) (blank : isBlank ch = true) :
    trimmedEffect sectionName (trim (ch :: text)) = .idle := by
  rw [trim_of_blank text blank, trimmedEffect,
    if_neg (ne_of_isBlank blank (by decide)),
    if_neg (ne_of_isBlank blank (by decide))]
  exact keyEffect_of_blank sectionName (trim text) blank

/-- A line that begins with a blank does nothing. -/
theorem lineEffect_of_blank
    {ch : UInt8} (text : Bytes) (blank : isBlank ch = true) :
    lineEffect sectionName (ch :: text) = .idle := by
  have shown : (ch != 0) = true :=
    bne_iff_ne.mpr (ne_of_isBlank blank (by decide))
  rw [lineEffect, cText, List.takeWhile_cons_of_pos (p := (· != 0)) shown]
  exact trimmedEffect_of_blank sectionName _ blank

theorem trimmedEffect_of_sign (text : Bytes) :
    trimmedEffect sectionName (trim (61 :: text)) = .idle := by
  rw [trim_of_visible text (by decide)]
  rfl

/-- The line feed does not belong to what a line says. -/
theorem lineEffect_feed (line : Bytes) :
    lineEffect sectionName (line ++ [10]) = lineEffect sectionName line := by
  by_cases nul : 0 ∈ line
  · rw [lineEffect, cText_append_of_mem [10] nul]
    rfl
  · cases line with
    | nil =>
        rfl
    | cons ch rest =>
        by_cases blank : isBlank ch = true
        · rw [List.cons_append, lineEffect_of_blank sectionName _ blank,
            lineEffect_of_blank sectionName _ blank]
        · have visible : isBlank ch = false := by
            simpa using blank
          unfold lineEffect
          rw [cText_append [10] nul, cText_of_not_mem nul]
          have feed : cText [10] = [10] := rfl
          rw [feed, List.cons_append, trim_of_visible _ visible,
            trim_of_visible _ visible,
            List.rdropWhile_concat_pos _ _ _ (by decide)]

/-- Blanks behind a key and before its value change nothing. -/
theorem keyEffect_around
    {ch : UInt8} {rest before text text' : Bytes}
    (visible : isBlank ch = false) (inside : 61 ∉ ch :: rest)
    (blank : ∀ ch ∈ before, isBlank ch = true)
    (value : text'.dropWhile isSpace = text.dropWhile isSpace) :
    keyEffect sectionName (ch :: rest ++ before ++ 61 :: text') =
      keyEffect sectionName (ch :: rest ++ 61 :: text) := by
  have inside' : 61 ∉ ch :: rest ++ before := by
    rw [List.mem_append, not_or]
    exact ⟨inside, not_mem_of_blank blank (by decide)⟩
  have white (n : Nat) : (before.drop n).all isSpace = true :=
    List.all_eq_true.mpr fun ch member =>
      isSpace_of_isBlank (blank ch (List.mem_of_mem_drop member))
  have overflow :
      ((ch :: rest ++ before).drop 63).all isSpace =
        ((ch :: rest).drop 63).all isSpace := by
    rw [List.drop_append, List.all_append, white, Bool.and_true]
  have key :
      trim ((ch :: rest ++ before).take 63) = trim ((ch :: rest).take 63) := by
    rw [List.cons_append, List.take_succ_cons, List.take_succ_cons,
      trim_of_visible _ visible, trim_of_visible _ visible, List.take_append,
      rdropWhile_append_blank]
    exact fun ch member => blank ch (List.mem_of_mem_take member)
  rw [keyEffect_field sectionName text' (by simp) inside',
    keyEffect_field sectionName text (List.cons_ne_nil _ _) inside, overflow,
    key, value]

theorem trimmedEffect_around
    {field before after : Bytes} (text : Bytes) (inside : 61 ∉ field)
    (key : ∀ ch ∈ (field.dropWhile isBlank).head?, ch ≠ 35 ∧ ch ≠ 91)
    (blankBefore : ∀ ch ∈ before, isBlank ch = true)
    (blankAfter : ∀ ch ∈ after, isBlank ch = true) :
    trimmedEffect sectionName
        (trim (field ++ before ++ 61 :: (after ++ text))) =
      trimmedEffect sectionName (trim (field ++ 61 :: text)) := by
  cases field with
  | nil =>
      rw [List.nil_append, List.nil_append, trimmedEffect_of_sign]
      cases before with
      | nil =>
          exact trimmedEffect_of_sign sectionName _
      | cons ch others =>
          rw [List.forall_mem_cons] at blankBefore
          exact trimmedEffect_of_blank sectionName _ blankBefore.1
  | cons ch rest =>
      by_cases blank : isBlank ch = true
      · rw [List.cons_append, List.cons_append, List.cons_append,
          trimmedEffect_of_blank sectionName _ blank,
          trimmedEffect_of_blank sectionName _ blank]
      · rw [List.dropWhile_cons_of_neg blank] at key
        obtain ⟨noComment, noHeader⟩ := key ch rfl
        have visible : isBlank ch = false := by
          simpa using blank
        have around := keyEffect_around sectionName visible inside
          blankBefore (dropWhile_blank_rdropWhile text blankAfter)
        rw [List.cons_append, List.cons_append, List.cons_append,
          trim_of_visible _ visible, trim_of_visible _ visible,
          rdropWhile_append_cons _ _ (by decide),
          rdropWhile_append_cons _ _ (by decide), trimmedEffect,
          trimmedEffect, if_neg noComment, if_neg noHeader,
          if_neg noComment, if_neg noHeader]
        exact around

/-- Blanks around the `=` that ends a key change nothing. -/
theorem lineEffect_around
    {field before after : Bytes} (text : Bytes) (inside : 61 ∉ field)
    (key : ∀ ch ∈ (field.dropWhile isBlank).head?, ch ≠ 35 ∧ ch ≠ 91)
    (blankBefore : ∀ ch ∈ before, isBlank ch = true)
    (blankAfter : ∀ ch ∈ after, isBlank ch = true) :
    lineEffect sectionName (field ++ before ++ 61 :: (after ++ text)) =
      lineEffect sectionName (field ++ 61 :: text) := by
  unfold lineEffect
  by_cases nul : 0 ∈ field
  · rw [List.append_assoc, cText_append_of_mem _ nul,
      cText_append_of_mem _ nul]
  · have zero : (0 : UInt8) ∉ field ++ before := by
      rw [List.mem_append, not_or]
      exact ⟨nul, not_mem_of_blank blankBefore (by decide)⟩
    have sign (rest : Bytes) : cText (61 :: rest) = 61 :: cText rest :=
      List.takeWhile_cons_of_pos (p := (· != 0)) (by decide)
    rw [cText_append _ zero, cText_append _ nul, sign, sign,
      cText_append _ (not_mem_of_blank blankAfter (by decide))]
    exact trimmedEffect_around sectionName (cText text) inside key
      blankBefore blankAfter

/-- Blanks around the first `=` of a key line change nothing. -/
theorem lineEffect_spaced
    {before after : Bytes} (line : Bytes)
    (blankBefore : ∀ ch ∈ before, isBlank ch = true)
    (blankAfter : ∀ ch ∈ after, isBlank ch = true) :
    lineEffect sectionName (spaced before after line) =
      lineEffect sectionName line := by
  unfold spaced
  by_cases keyLine : isKeyLine line = true
  · rw [if_pos keyLine]
    rw [isKeyLine, Bool.and_eq_true] at keyLine
    obtain ⟨contains, first⟩ := keyLine
    have sign : 61 ∈ line := by
      simpa using contains
    obtain ⟨shape, inside⟩ := split_at_stop sign
    have key :
        ∀ ch ∈ ((line.takeWhile (· != 61)).dropWhile isBlank).head?,
          ch ≠ 35 ∧ ch ≠ 91 := by
      intro ch member
      obtain ⟨others, start⟩ := List.head?_eq_some_iff.mp member
      have whole : (line.dropWhile isBlank).head? = some ch := by
        rw [shape, List.dropWhile_append, if_neg (by simp [start]), start]
        rfl
      rw [whole] at first
      simpa using first
    rw [lineEffect_around sectionName _ inside key blankBefore blankAfter,
      ← shape]
  · rw [if_neg keyLine]

end Effects

/-! ## Files -/

theorem mem_spaced
    {before after line : Bytes} {ch : UInt8}
    (member : ch ∈ spaced before after line) :
    ch ∈ line ∨ ch ∈ before ∨ ch ∈ after := by
  unfold spaced at member
  by_cases keyLine : isKeyLine line = true
  · rw [if_pos keyLine] at member
    rw [isKeyLine, Bool.and_eq_true] at keyLine
    have sign : 61 ∈ line := by
      simpa using keyLine.1
    obtain ⟨shape, -⟩ := split_at_stop sign
    rw [shape]
    simp only [List.mem_append, List.mem_cons] at member ⊢
    rcases member with (early | pad) | same | pad | late
    · exact Or.inl (Or.inl early)
    · exact Or.inr (Or.inl pad)
    · exact Or.inl (Or.inr (Or.inl same))
    · exact Or.inr (Or.inr pad)
    · exact Or.inl (Or.inr (Or.inr late))
  · rw [if_neg keyLine] at member
    exact Or.inl member

namespace BlankedLine

variable (row : BlankedLine)

theorem lead_blank : ∀ ch ∈ row.lead, isBlank ch = true :=
  fun ch member => row.blank ch
    (List.mem_append_left _ (List.mem_append_left _ member))

theorem before_blank : ∀ ch ∈ row.before, isBlank ch = true :=
  fun ch member => row.blank ch
    (List.mem_append_left _ (List.mem_append_right _ member))

theorem after_blank : ∀ ch ∈ row.after, isBlank ch = true :=
  fun ch member => row.blank ch (List.mem_append_right _ member)

theorem blanked_single : 10 ∉ row.blanked := by
  intro feed
  rcases List.mem_append.mp feed with pad | member
  · exact not_mem_of_blank row.lead_blank (by decide) pad
  · rcases mem_spaced member with old | pad | pad
    · exact row.single old
    · exact not_mem_of_blank row.before_blank (by decide) pad
    · exact not_mem_of_blank row.after_blank (by decide) pad

/-- A line with a blank in front does nothing, and any other line does what it
did without the blanks. -/
theorem lineEffect_blanked (sectionName : Bytes) :
    lineEffect sectionName row.blanked =
      if row.lead.isEmpty then lineEffect sectionName row.line
      else .idle := by
  have blank := row.lead_blank
  unfold blanked
  cases front : row.lead with
  | nil =>
      rw [List.nil_append]
      exact lineEffect_spaced sectionName row.line row.before_blank
        row.after_blank
  | cons ch others =>
      rw [front, List.forall_mem_cons] at blank
      exact lineEffect_of_blank sectionName _ blank.1

end BlankedLine

theorem assignments_congr
    {line line' : Bytes} {lines lines' : List Bytes}
    (same : ∀ sectionName,
      lineEffect sectionName line = lineEffect sectionName line')
    (tails : ∀ sectionName,
      assignments sectionName lines = assignments sectionName lines')
    (sectionName : Bytes) :
    assignments sectionName (line :: lines) =
      assignments sectionName (line' :: lines') := by
  rw [assignments, assignments, same]
  cases lineEffect sectionName line' with
  | idle =>
      exact tails sectionName
  | opens opened =>
      exact tails opened
  | sets setting val =>
      exact congrArg _ (tails sectionName)

theorem assignments_of_idle
    {sectionName line : Bytes} (lines : List Bytes)
    (idle : lineEffect sectionName line = .idle) :
    assignments sectionName (line :: lines) =
      assignments sectionName lines := by
  rw [assignments, idle]

/-- Lines with a blank in front can be left out. -/
theorem assignments_blanked
    (rows : List BlankedLine) (sectionName : Bytes) :
    assignments sectionName (rows.map BlankedLine.blanked) =
      assignments sectionName
        ((rows.filter fun row => row.lead.isEmpty).map
          BlankedLine.line) := by
  induction rows generalizing sectionName with
  | nil =>
      rfl
  | cons row rows inductionHypothesis =>
      have effect (name : Bytes) := row.lineEffect_blanked name
      by_cases front : row.lead.isEmpty = true
      · simp only [if_pos front] at effect
        rw [List.filter_cons_of_pos (by simpa using front)]
        exact assignments_congr effect inductionHypothesis sectionName
      · simp only [if_neg front] at effect
        rw [List.filter_cons_of_neg (by simpa using front), List.map_cons,
          assignments_of_idle _ (effect sectionName)]
        exact inductionHypothesis sectionName

/-- What is read as the pieces of a file assigns what its lines assign. -/
theorem assignments_pieces
    (lines : List Bytes) (final sectionName : Bytes) :
    assignments sectionName
        ((lines.map fun line => line ++ [10]) ++
          if final.isEmpty then [] else [final]) =
      assignments sectionName (lines ++ [final]) := by
  induction lines generalizing sectionName with
  | nil =>
      cases final with
      | nil =>
          rfl
      | cons ch rest =>
          rfl
  | cons line lines inductionHypothesis =>
      exact assignments_congr (fun name => lineEffect_feed name line)
        inductionHypothesis sectionName

/-- What `config_load` reads of a file whose lines are short. -/
theorem configLoad_text
    {lines : List Bytes} {final : Bytes}
    (single : ∀ line ∈ lines ++ [final], 10 ∉ line)
    (fits : ∀ line ∈ lines ++ [final], line.length < 255) :
    configLoad (some (unlines lines ++ final)) =
      (0, configFields.writes configLoadDefault
        (assignments [] (lines ++ [final]))) := by
  rw [List.forall_mem_append, List.forall_mem_singleton] at single fits
  rw [configLoad_some, fgetsPieces_unlines_append final single.1 fits.1,
    fgetsPieces_final single.2 fits.2, assignments_pieces]

namespace BlankedFile

variable (file : BlankedFile)

theorem configLoad_rows
    {text : BlankedLine → Bytes} (single : ∀ row, 10 ∉ text row)
    (fits : ∀ row, (text row).length < 255) :
    configLoad (some (unlines (file.rows.map text) ++ text file.final)) =
      (0, configFields.writes configLoadDefault
        (assignments [] (file.lines.map text))) := by
  have all : file.lines.map text = file.rows.map text ++ [text file.final] :=
    List.map_append
  rw [all]
  refine configLoad_text ?_ ?_
  · rw [← all]
    exact List.forall_mem_map.mpr fun row _ => single row
  · rw [← all]
    exact List.forall_mem_map.mpr fun row _ => fits row

theorem configLoad_original :
    configLoad (some file.original) =
      (0, configFields.writes configLoadDefault
        (assignments [] (file.lines.map BlankedLine.line))) :=
  file.configLoad_rows BlankedLine.single BlankedLine.fits

/-- Of a file with blanks only the lines are read that have none in front. -/
theorem configLoad_blanked :
    configLoad (some file.blanked) =
      (0, configFields.writes configLoadDefault
        (assignments [] (file.flush.map BlankedLine.line))) := by
  rw [flush, ← assignments_blanked]
  exact file.configLoad_rows BlankedLine.blanked_single
    BlankedLine.blankedFits

/-- Blanks around `=` alone are ignored. -/
theorem configLoad_of_flush
    (flush : ∀ row ∈ file.lines, row.lead.isEmpty = true) :
    configLoad (some file.blanked) = configLoad (some file.original) := by
  have all : file.flush = file.lines := List.filter_eq_self.mpr flush
  rw [file.configLoad_blanked, file.configLoad_original, all]

end BlankedFile

/-- Blanks in front of lines and around the first `=` of key lines leave what
is read unchanged exactly when the lines without a blank in front give every
setting the value that all lines of the original give it. -/
theorem config_ignores_blanks_iff (file : BlankedFile) :
    configLoad (some file.blanked) = configLoad (some file.original) ↔
      ∀ setting,
        configFields.last configLoadDefault
            (assignments [] (file.flush.map BlankedLine.line)) setting =
          configFields.last configLoadDefault
            (assignments [] (file.lines.map BlankedLine.line)) setting := by
  rw [file.configLoad_blanked, file.configLoad_original, Prod.mk.injEq,
    configFields.writes_eq_iff]
  exact and_iff_right rfl

/-- Two spaces in front of the line that sets the local port lose it. -/
theorem config_does_not_ignore_indentation :
    ¬ ∀ file : BlankedFile,
      configLoad (some file.blanked) = configLoad (some file.original) := by
  intro same
  have read := same
    { rows :=
        [{ line := ascii "[transport]"
           lead := []
           before := []
           after := []
           single := by decide
           fits := by decide
           blank := forall_mem_of_all (by decide)
           blankedFits := by decide },
         { line := ascii "local_port=5"
           lead := ascii "  "
           before := []
           after := []
           single := by decide
           fits := by decide
           blank := forall_mem_of_all (by decide)
           blankedFits := by decide }]
      final :=
        { line := []
          lead := []
          before := []
          after := []
          single := by decide
          fits := by decide
          blank := forall_mem_of_all (by decide)
          blankedFits := by decide } }
  revert read
  decide +kernel

end PqComm
