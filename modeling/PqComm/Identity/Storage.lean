import PqComm.Group.Rooms
import PqComm.Identity.HexKeys

/-!
# The identity file and its backup

`save_identity` and `identity_backup` write one line for each field, and
`load_identity` and `identity_restore` read such lines with
`"%63[^=]=%191s"`.  The last conversion ends at white space, so of a name only
its first word comes back, and a restored identity counts as valid only when
its key does not begin with a zero byte.
-/

namespace PqComm

open Lib

def identityUsernameMax : Nat := 32
def identityDisplayMax : Nat := 64

/-- `identity_t`. -/
structure Identity where
  username : Bytes := []
  displayName : Bytes := []
  identityKey : Bytes := zeros 32
  initialized : Bool := false
  deriving DecidableEq

/-! ## Writing -/

/-- `"%s=%s"`. -/
def fieldLine (name value : Bytes) : Bytes :=
  name ++ 61 :: value

/-- The lines of the three fields. -/
def Identity.lines (id : Identity) : List Bytes :=
  [fieldLine (ascii "username") id.username,
    fieldLine (ascii "display_name") id.displayName,
    fieldLine (ascii "identity_key") (bytesToHex id.identityKey)]

/-- `save_identity`, whose file could be opened. -/
def saveIdentity (id : Identity) : Bytes :=
  unlines id.lines

/-- `identity_create`; `envKey` is `IDENTITY_KEY` of the environment, `random`
what `kem_random_bytes` gives, and `opened` whether the file can be written.
With the return value come the identity and the file. -/
def identityCreate
    (opened : Bool) (envKey : Option Bytes)
    (random username displayName : Bytes) : Int × Identity × Option Bytes :=
  let id : Identity :=
    { username := snprintfText identityUsernameMax username
      displayName := snprintfText identityDisplayMax displayName
      identityKey :=
        (envKey.bind (importedKey fun _ => 0)).getD random }
  if opened then
    (0, { id with initialized := true }, some (saveIdentity id))
  else
    (-1, id, none)

/-- `%ld`. -/
def signedDecimal (n : Int64) : Bytes :=
  if n < 0 then
    45 :: decimal n.toInt.natAbs
  else
    decimal n.toInt.natAbs

/-- `identity_backup`, whose file could be opened; `created` is the time. -/
def identityBackup (id : Identity) (created : Int64) : Option Bytes :=
  if !id.initialized then
    none
  else
    some
      (unlines
        (ascii "# PQCOMM identity backup" ::
          (ascii "# created: " ++ signedDecimal created) :: id.lines))

/-! ## Reading -/

/-- `sscanf(line, "%63[^=]=%191s", key, val)` with two conversions. -/
def scanKeyVal (line : Bytes) : Option (Bytes × Bytes) := do
  let (key, line) ← scanUntil 63 61 line
  let line ← scanChar 61 line
  let (val, _) ← scanWord 191 line
  return (key, val)

/-- The bytes that `hex_to_bytes` writes, up to the first pair it refuses. -/
def hexWritten (hex : Mem) (len : Nat) : Bytes :=
  (((List.range len).map fun i =>
      hexPair (hex (i * 2)) (hex (i * 2 + 1))).takeWhile
    Option.isSome).filterMap id

/-- What the readers do with a key and its value. -/
def Identity.assign (id : Identity) (key val : Bytes) : Identity :=
  if key = ascii "username" then
    { id with username := snprintfText identityUsernameMax val }
  else if key = ascii "display_name" then
    { id with displayName := snprintfText identityDisplayMax val }
  else if key = ascii "identity_key" ∧ val.length = 64 then
    { id with
      identityKey :=
        overlay id.identityKey
          (hexWritten (memWrite (fun _ => 0) 0 (val ++ [0])) 32) }
  else
    id

/-- One turn of the loop of `load_identity`. -/
def loadIdentityLine (id : Identity) (line : Bytes) : Identity :=
  match scanKeyVal (cText line) with
  | none => id
  | some (key, val) => id.assign key (val.takeWhile (· != 10))

/-- `load_identity`; no file stands for one that cannot be opened. -/
def loadIdentity (id : Identity) (file : Option Bytes) : Int × Identity :=
  match file with
  | none => (-1, id)
  | some text =>
      let id := (fgetsPieces 255 text).foldl loadIdentityLine id
      let initialized := !id.username.isEmpty
      (if initialized then 0 else -1, { id with initialized := initialized })

/-- `identity_init`. -/
def identityInit (file : Option Bytes) : Int × Identity :=
  loadIdentity {} file

/-- One turn of the loop of `identity_restore`. -/
def restoreIdentityLine (id : Identity) (line : Bytes) : Identity :=
  if line.head? = some 35 then
    id
  else
    match scanKeyVal (cText line) with
    | none => id
    | some (key, val) => id.assign key val

/-- `identity_restore`, whose file could be opened. -/
def identityRestore (text : Bytes) : Int × Identity :=
  let id := (fgetsPieces 255 text).foldl restoreIdentityLine {}
  let initialized :=
    !id.username.isEmpty && id.identityKey.getD 0 0 != 0
  (if initialized then 0 else -1, { id with initialized := initialized })

/-! ## One line -/

/-- A value that a line can hold and that begins with a visible character. -/
structure StoredValue (value : Bytes) : Prop where
  short : value.length ≤ 64
  text : ∀ ch ∈ value, ch ≠ 0 ∧ ch ≠ 10
  start : ∃ ch ∈ value.head?, isSpace ch = false

/-- A name of a field. -/
structure FieldName (name : Bytes) : Prop where
  filled : name ≠ []
  short : name.length ≤ 12
  text : ∀ ch ∈ name, ch ≠ 0 ∧ ch ≠ 10 ∧ ch ≠ 35 ∧ ch ≠ 61

instance (name : Bytes) : Decidable (FieldName name) :=
  decidable_of_iff
    (name ≠ [] ∧ name.length ≤ 12 ∧
      (name.all fun ch =>
        decide (ch ≠ 0 ∧ ch ≠ 10 ∧ ch ≠ 35 ∧ ch ≠ 61)) = true)
    ⟨fun ⟨filled, short, text⟩ => ⟨filled, short, forall_mem_of_all text⟩,
      fun field =>
        ⟨field.filled, field.short,
          List.all_eq_true.mpr fun ch member =>
            decide_eq_true (field.text ch member)⟩⟩

section

variable {name value : Bytes}

theorem fieldLine_mem
    (field : FieldName name) (stored : StoredValue value) :
    0 ∉ fieldLine name value ∧ 10 ∉ fieldLine name value := by
  have absent (ch : UInt8) (other : ch ≠ 61)
      (inName : ch ∉ name) (inValue : ch ∉ value) :
      ch ∉ fieldLine name value := by
    rw [fieldLine, List.mem_append, List.mem_cons]
    rintro (left | equal | right)
    · exact inName left
    · exact other equal
    · exact inValue right
  exact ⟨absent 0 (by decide) (fun member => (field.text 0 member).1 rfl)
      (fun member => (stored.text 0 member).1 rfl),
    absent 10 (by decide) (fun member => (field.text 10 member).2.1 rfl)
      (fun member => (stored.text 10 member).2 rfl)⟩

/-- Of a line the name and the first word of the value are read. -/
theorem scanKeyVal_fieldLine
    (field : FieldName name) (stored : StoredValue value) :
    scanKeyVal (cText (fieldLine name value ++ [10])) =
      some (name, firstWord value) := by
  have noNul : 0 ∉ fieldLine name value ++ [10] := by
    rw [List.mem_append, not_or]
    exact ⟨(fieldLine_mem field stored).1, by decide⟩
  have noEquals : 61 ∉ name := fun member => (field.text 61 member).2.2.2 rfl
  have read :
      scanUntil 63 61 (name ++ 61 :: (value ++ [10])) =
        some (name, 61 :: (value ++ [10])) :=
    scanUntil_field (value ++ [10]) field.filled
      (Nat.le_trans field.short (by decide)) noEquals
  obtain ⟨rest, word⟩ :=
    scanWord_firstWord (Nat.le_trans stored.short (by decide : 64 ≤ 191))
      stored.start
  rw [cText_of_not_mem noNul, fieldLine, List.append_assoc,
    List.cons_append]
  unfold scanKeyVal
  rw [read]
  change (scanWord 191 (value ++ [10])).bind _ = _
  rw [word]
  rfl

theorem firstWord_visible :
    ∀ ch ∈ firstWord value, isSpace ch = false := by
  intro ch member
  simpa using List.mem_takeWhile_imp member

theorem loadIdentityLine_fieldLine
    (id : Identity) (field : FieldName name) (stored : StoredValue value) :
    loadIdentityLine id (fieldLine name value ++ [10]) =
      id.assign name (firstWord value) := by
  have single : (firstWord value).takeWhile (· != 10) = firstWord value := by
    refine List.takeWhile_eq_self_iff.mpr fun ch member => ?_
    refine bne_iff_ne.mpr fun feed => ?_
    have visible := firstWord_visible ch member
    rw [feed] at visible
    exact absurd visible (by decide)
  unfold loadIdentityLine
  rw [scanKeyVal_fieldLine field stored]
  dsimp only
  rw [single]

theorem restoreIdentityLine_fieldLine
    (id : Identity) (field : FieldName name) (stored : StoredValue value) :
    restoreIdentityLine id (fieldLine name value ++ [10]) =
      id.assign name (firstWord value) := by
  have noComment : (fieldLine name value ++ [10]).head? ≠ some 35 := by
    obtain ⟨first, others, rfl⟩ := List.exists_cons_of_ne_nil field.filled
    intro comment
    cases comment
    exact (field.text 35 List.mem_cons_self).2.2.1 rfl
  unfold restoreIdentityLine
  rw [if_neg noComment, scanKeyVal_fieldLine field stored]

end

/-! ## The key -/

theorem hexPairs_of_read
    {hex : Mem} {len : Nat} {bytes : Bytes}
    (read : hexToBytes hex len = some bytes) :
    ((List.range len).map fun i => hexPair (hex (i * 2)) (hex (i * 2 + 1))) =
      bytes.map some := by
  induction len generalizing bytes with
  | zero =>
      cases read
      rfl
  | succ len inductionHypothesis =>
      rw [hexToBytes] at read
      obtain ⟨earlier, before, rest⟩ := Option.bind_eq_some_iff.mp read
      obtain ⟨byte, pair, last⟩ := Option.bind_eq_some_iff.mp rest
      cases last
      rw [List.range_succ, List.map_append, inductionHypothesis before,
        List.map_append]
      exact congrArg (fun pair => earlier.map some ++ [pair]) pair

/-- A key that is accepted is written whole. -/
theorem hexWritten_of_read
    {hex : Mem} {len : Nat} {bytes : Bytes}
    (read : hexToBytes hex len = some bytes) : hexWritten hex len = bytes := by
  have whole : (bytes.map some).takeWhile Option.isSome = bytes.map some := by
    refine List.takeWhile_eq_self_iff.mpr fun pair member => ?_
    obtain ⟨byte, -, rfl⟩ := List.mem_map.mp member
    rfl
  unfold hexWritten
  rw [hexPairs_of_read read, whole, List.filterMap_map]
  exact List.filterMap_some

theorem firstWord_bytesToHex (bytes : Bytes) :
    firstWord (bytesToHex bytes) = bytesToHex bytes :=
  firstWord_eq_self_iff.mpr fun ch member =>
    (bytesToHex_visible bytes ch member).1

theorem storedValue_bytesToHex
    {key : Bytes} (size : key.length = 32) : StoredValue (bytesToHex key) := by
  have length : (bytesToHex key).length = 64 := by
    rw [length_bytesToHex, size]
  refine ⟨Nat.le_of_eq length, fun ch member => ?_, ?_⟩
  · exact (bytesToHex_visible key ch member).2
  · cases shape : bytesToHex key with
    | nil =>
        rw [shape] at length
        cases length
    | cons ch rest =>
        refine ⟨ch, rfl, (bytesToHex_visible key ch ?_).1⟩
        rw [shape]
        exact List.mem_cons_self

theorem Identity.assign_key
    (id : Identity) (old : id.identityKey.length = 32) {key : Bytes}
    (size : key.length = 32) :
    id.assign (ascii "identity_key") (bytesToHex key) =
      { id with identityKey := key } := by
  have length : (bytesToHex key).length = 64 := by
    rw [length_bytesToHex, size]
  have read := hexToBytes_bytesToHex (fun _ => 0) (Nat.le_of_eq size.symm)
  rw [List.take_of_length_le (Nat.le_of_eq size)] at read
  unfold Identity.assign
  rw [if_neg (by decide), if_neg (by decide), if_pos ⟨rfl, length⟩,
    hexWritten_of_read read, overlay, size, ← old, List.drop_length,
    List.append_nil]

/-! ## All lines -/

/-- A name that the login screen admits: its first character is not a space. -/
structure LoginName (text : Bytes) : Prop where
  filled : text ≠ []
  short : text.length ≤ 30
  printable : ∀ ch ∈ text, 32 ≤ ch ∧ ch ≤ 126
  start : text.head? ≠ some 32

theorem printable_char
    {ch : UInt8} (printable : 32 ≤ ch ∧ ch ≤ 126) :
    ch ≠ 0 ∧ ch ≠ 10 ∧ (isSpace ch = true ↔ ch = 32) := by
  have all :
      ∀ k : Fin 256, 32 ≤ UInt8.ofNat k.val ∧ UInt8.ofNat k.val ≤ 126 →
        UInt8.ofNat k.val ≠ 0 ∧ UInt8.ofNat k.val ≠ 10 ∧
          (isSpace (UInt8.ofNat k.val) = true ↔ UInt8.ofNat k.val = 32) := by
    decide +kernel
  have known := all ⟨ch.toNat, ch.toNat_lt⟩
  rw [UInt8.ofNat_toNat] at known
  exact known printable

section

variable {text : Bytes}

theorem LoginName.stored (login : LoginName text) : StoredValue text := by
  refine ⟨Nat.le_trans login.short (by decide), fun ch member => ?_, ?_⟩
  · obtain ⟨noNul, noFeed, -⟩ := printable_char (login.printable ch member)
    exact ⟨noNul, noFeed⟩
  · obtain ⟨first, others, rfl⟩ := List.exists_cons_of_ne_nil login.filled
    refine ⟨first, rfl, ?_⟩
    obtain ⟨-, -, space⟩ :=
      printable_char (login.printable first List.mem_cons_self)
    rw [Bool.eq_false_iff, ne_eq, space]
    exact fun blank => login.start (congrArg some blank)

/-- A name comes back whole when there is no space in it. -/
theorem LoginName.firstWord_eq_iff (login : LoginName text) :
    firstWord text = text ↔ 32 ∉ text := by
  rw [firstWord_eq_self_iff]
  constructor
  · intro visible member
    exact absurd (visible 32 member) (by decide)
  · intro noSpace ch member
    obtain ⟨-, -, space⟩ := printable_char (login.printable ch member)
    rw [Bool.eq_false_iff, ne_eq, space]
    exact fun blank => noSpace (blank ▸ member)

theorem LoginName.firstWord_ne_nil (login : LoginName text) :
    firstWord text ≠ [] := by
  obtain ⟨first, others, rfl⟩ := List.exists_cons_of_ne_nil login.filled
  obtain ⟨ch, same, visible⟩ := login.stored.start
  cases same
  rw [firstWord, List.takeWhile_cons_of_pos (by simp [visible])]
  exact List.cons_ne_nil _ _

theorem length_firstWord_le (text : Bytes) :
    (firstWord text).length ≤ text.length :=
  (List.takeWhile_prefix _).length_le

end

/-- What can be in an identity after the login screen. -/
structure LoginIdentity (id : Identity) : Prop where
  username : LoginName id.username
  displayName : LoginName id.displayName
  key : id.identityKey.length = 32

/-- What comes back of an identity. -/
def Identity.readBack (id : Identity) (initialized : Bool) : Identity :=
  { username := firstWord id.username
    displayName := firstWord id.displayName
    identityKey := id.identityKey
    initialized := initialized }

section

variable {id : Identity}

theorem LoginIdentity.lines_plain (login : LoginIdentity id) :
    ∀ line ∈ id.lines, 10 ∉ line ∧ line.length < 255 := by
  have plain {name value : Bytes} (field : FieldName name)
      (stored : StoredValue value) :
      10 ∉ fieldLine name value ∧ (fieldLine name value).length < 255 := by
    have nameShort := field.short
    have valueShort := stored.short
    refine ⟨(fieldLine_mem field stored).2, ?_⟩
    rw [fieldLine, List.length_append, List.length_cons]
    omega
  unfold Identity.lines
  rw [List.forall_mem_cons, List.forall_mem_cons, List.forall_mem_singleton]
  exact ⟨plain (by decide) login.username.stored,
    plain (by decide) login.displayName.stored,
    plain (by decide) (storedValue_bytesToHex login.key)⟩

/-- Either reader gets the first words and the key out of the lines. -/
theorem LoginIdentity.foldl_lines
    (login : LoginIdentity id) {step : Identity → Bytes → Identity}
    (reads : ∀ id name value, FieldName name → StoredValue value →
      step id (fieldLine name value ++ [10]) =
        id.assign name (firstWord value)) :
    (id.lines.map fun line => line ++ [10]).foldl step {} =
      id.readBack false := by
  have user : snprintfText identityUsernameMax (firstWord id.username) =
      firstWord id.username := by
    refine List.take_of_length_le ?_
    have short := length_firstWord_le id.username
    have fits := login.username.short
    unfold identityUsernameMax
    omega
  have display : snprintfText identityDisplayMax (firstWord id.displayName) =
      firstWord id.displayName := by
    refine List.take_of_length_le ?_
    have short := length_firstWord_le id.displayName
    have fits := login.displayName.short
    unfold identityDisplayMax
    omega
  unfold Identity.lines
  rw [List.map_cons, List.map_cons, List.map_singleton, List.foldl_cons,
    List.foldl_cons, List.foldl_cons, List.foldl_nil,
    reads _ _ _ (by decide) login.username.stored,
    reads _ _ _ (by decide) login.displayName.stored,
    reads _ _ _ (by decide) (storedValue_bytesToHex login.key),
    firstWord_bytesToHex, Identity.assign_key _ rfl login.key]
  unfold Identity.assign Identity.readBack
  rw [if_pos rfl, if_neg (by decide), if_pos rfl, user, display]

theorem LoginIdentity.identityInit_saved (login : LoginIdentity id) :
    identityInit (some (saveIdentity id)) = (0, id.readBack true) := by
  have lines := login.lines_plain
  unfold identityInit loadIdentity saveIdentity
  dsimp only
  rw [fgetsPieces_unlines (fun line member => (lines line member).1)
      (fun line member => (lines line member).2),
    login.foldl_lines fun id _ _ => loadIdentityLine_fieldLine id]
  have named : (!(id.readBack false).username.isEmpty) = true := by
    simpa [Identity.readBack] using login.username.firstWord_ne_nil
  rw [named]
  rfl

theorem signedDecimal_plain (n : Int64) :
    10 ∉ signedDecimal n ∧ (signedDecimal n).length ≤ 20 := by
  have digits := (decimal_digits n.toInt.natAbs).1
  have short : (decimal n.toInt.natAbs).length ≤ 19 := by
    have low := n.le_toInt
    have high := n.toInt_lt
    rw [decimal, List.length_map, Nat.length_toDigits_le_iff] <;> omega
  have noFeed : 10 ∉ decimal n.toInt.natAbs := fun member =>
    absurd (digits 10 member) (by decide)
  unfold signedDecimal
  split
  · rw [List.mem_cons, not_or, List.length_cons]
    exact ⟨⟨by decide, noFeed⟩, Nat.succ_le_succ short⟩
  · exact ⟨noFeed, Nat.le_succ_of_le short⟩

theorem LoginIdentity.identityRestore_backup
    (login : LoginIdentity id) (valid : id.initialized = true)
    (created : Int64) :
    ∃ text, identityBackup id created = some text ∧
      identityRestore text =
        if id.identityKey.getD 0 0 ≠ 0 then (0, id.readBack true)
        else (-1, id.readBack false) := by
  have lines := login.lines_plain
  obtain ⟨noFeed, short⟩ := signedDecimal_plain created
  have plain :
      ∀ line ∈ ascii "# PQCOMM identity backup" ::
          (ascii "# created: " ++ signedDecimal created) :: id.lines,
        10 ∉ line ∧ line.length < 255 := by
    rw [List.forall_mem_cons, List.forall_mem_cons]
    refine ⟨by decide, ⟨?_, ?_⟩, lines⟩
    · rw [List.mem_append, not_or]
      exact ⟨by decide, noFeed⟩
    · have head : (ascii "# created: ").length = 11 := rfl
      rw [List.length_append, head]
      omega
  refine ⟨_, by unfold identityBackup; rw [valid]; rfl, ?_⟩
  unfold identityRestore
  rw [fgetsPieces_unlines (fun line member => (plain line member).1)
    (fun line member => (plain line member).2), List.map_cons, List.map_cons,
    List.foldl_cons, List.foldl_cons]
  have title : restoreIdentityLine {}
      (ascii "# PQCOMM identity backup" ++ [10]) = {} :=
    if_pos rfl
  have time : restoreIdentityLine {}
      (ascii "# created: " ++ signedDecimal created ++ [10]) = {} :=
    if_pos rfl
  rw [title, time,
    login.foldl_lines fun id _ _ => restoreIdentityLine_fieldLine id]
  have named : (!(id.readBack false).username.isEmpty) = true := by
    simpa [Identity.readBack] using login.username.firstWord_ne_nil
  dsimp only
  rw [named, Bool.true_and]
  change (if (id.identityKey.getD 0 0 != 0) = true then (0 : Int) else -1,
    id.readBack (id.identityKey.getD 0 0 != 0)) = _
  by_cases zero : id.identityKey.getD 0 0 = 0
  · rw [zero]
    rfl
  · rw [if_pos (bne_iff_ne.mpr zero), if_pos zero, bne_iff_ne.mpr zero]

theorem LoginIdentity.readBack_eq_iff
    (login : LoginIdentity id) (valid : id.initialized = true) :
    id.readBack true = id ↔ 32 ∉ id.username ∧ 32 ∉ id.displayName := by
  rw [← login.username.firstWord_eq_iff, ← login.displayName.firstWord_eq_iff]
  constructor
  · intro same
    exact ⟨congrArg Identity.username same, congrArg Identity.displayName same⟩
  · rintro ⟨user, display⟩
    rw [Identity.readBack, user, display, ← valid]

end

/-- An identity that was created with names of the login screen. -/
theorem loginIdentity_of_create
    {opened : Bool} {envKey : Option Bytes}
    {random username displayName : Bytes} (user : LoginName username)
    (display : LoginName displayName) (size : random.length = 32)
    {id : Identity} {file : Bytes}
    (created :
      identityCreate opened envKey random username displayName =
        (0, id, some file)) :
    LoginIdentity id ∧ id.initialized = true ∧ file = saveIdentity id ∧
      id.username = username ∧ id.displayName = displayName := by
  have userFits : snprintfText identityUsernameMax username = username := by
    refine List.take_of_length_le ?_
    have short := user.short
    unfold identityUsernameMax
    omega
  have displayFits :
      snprintfText identityDisplayMax displayName = displayName := by
    refine List.take_of_length_le ?_
    have short := display.short
    unfold identityDisplayMax
    omega
  have key :
      ((envKey.bind (importedKey fun _ => 0)).getD random).length = 32 := by
    cases imported : envKey.bind (importedKey fun _ => 0) with
    | none => exact size
    | some key =>
        obtain ⟨text, -, taken⟩ := Option.bind_eq_some_iff.mp imported
        exact length_importedKey taken
  unfold identityCreate at created
  rw [userFits, displayFits] at created
  cases opened with
  | false => cases created
  | true =>
      cases created
      exact ⟨⟨user, display, key⟩, rfl, rfl, rfl, rfl⟩

/-- A created identity comes back from its file and from a backup exactly when
no name has a space in it and the key does not begin with a zero byte. -/
theorem identity_survives_storage_iff
    {opened : Bool} {envKey : Option Bytes}
    {random username displayName : Bytes} (user : LoginName username)
    (display : LoginName displayName) (size : random.length = 32)
    {id : Identity} {file : Bytes}
    (created :
      identityCreate opened envKey random username displayName =
        (0, id, some file))
    (time : Int64) :
    (identityInit (some file) = (0, id) ∧
        ∃ backup, identityBackup id time = some backup ∧
          identityRestore backup = (0, id)) ↔
      32 ∉ username ∧ 32 ∉ displayName ∧ id.identityKey.getD 0 0 ≠ 0 := by
  obtain ⟨login, valid, rfl, rfl, rfl⟩ :=
    loginIdentity_of_create user display size created
  obtain ⟨text, written, restored⟩ := login.identityRestore_backup valid time
  have same := login.readBack_eq_iff valid
  rw [login.identityInit_saved]
  constructor
  · rintro ⟨loaded, backup, saved, read⟩
    obtain ⟨noSpace, noSpace'⟩ := same.mp (congrArg Prod.snd loaded)
    refine ⟨noSpace, noSpace', fun zero => ?_⟩
    rw [written] at saved
    cases saved
    rw [restored, if_neg (not_not.mpr zero)] at read
    have code : (-1 : Int) = 0 := congrArg Prod.fst read
    exact absurd code (by decide)
  · rintro ⟨noSpace, noSpace', nonzero⟩
    have whole := same.mpr ⟨noSpace, noSpace'⟩
    refine ⟨by rw [whole], text, written, ?_⟩
    rw [restored, if_pos nonzero, whole]

theorem identity_survives_storage_short_names :
    identityInit
        (some
          (unlines [ascii "username=ab", ascii "display_name=c",
            ascii "identity_key=" ++ bytesToHex (List.replicate 32 1)])) =
      (0,
        { username := ascii "ab"
          displayName := ascii "c"
          identityKey := List.replicate 32 1
          initialized := true }) :=
  ((@identity_survives_storage_iff true none (List.replicate 32 1)
    (ascii "ab") (ascii "c")
    ⟨by decide, by decide, forall_mem_of_all (by decide), by decide⟩
    ⟨by decide, by decide, forall_mem_of_all (by decide), by decide⟩
    (by decide) _ _ rfl 0).mpr ⟨by decide, by decide, by decide⟩).1

/-- Of the name `a b` the first word comes back, and a backup whose key begins
with a zero byte is refused. -/
theorem identity_lost_in_storage :
    (identityCreate true none (List.replicate 32 1) (ascii "a b")
        (ascii "c")).2.2.map (fun file => identityInit (some file)) =
      some
        (0,
          { username := ascii "a"
            displayName := ascii "c"
            identityKey := List.replicate 32 1
            initialized := true }) ∧
      ((identityBackup
        (identityCreate true none (List.replicate 32 0) (ascii "a")
          (ascii "c")).2.1 5).map fun text => (identityRestore text).1) =
        some (-1) := by
  decide +kernel

end PqComm
