import PqComm.Lib.Text

/-!
# Known hosts

`known_hosts_add` appends a line for a peer to a file and
`known_hosts_check` looks a peer up in it.  The writer prints the address as
it is; the reader takes everything before the first colon as the address, and
no more than 31 characters as the user name.
-/

namespace PqComm

open Lib

/-! ## The functions of the source -/

/-- `bytes_to_hex`. -/
def bytesToHex (bytes : Bytes) : Bytes :=
  bytes.flatMap hexByte

/-- The byte of two characters: `strtol` has to come to the terminator of
`byte_str`, which an empty string does without a number. -/
def hexPair (high low : UInt8) : Option UInt8 :=
  let text := [high, low].takeWhile (· != 0)
  match strtol 16 text with
  | none => if text.isEmpty then some 0 else none
  | some (value, rest) =>
      if rest.isEmpty then some (UInt8.ofNat (value % 256).toNat) else none

/-- `hex_to_bytes`; the characters behind the terminator are read too. -/
def hexToBytes (hex : Mem) : Nat → Option Bytes
  | 0 => some []
  | len + 1 => do
      let bytes ← hexToBytes hex len
      let byte ← hexPair (hex (len * 2)) (hex (len * 2 + 1))
      return bytes ++ [byte]

/-- `"unknown"`. -/
def textUnknown : Bytes :=
  [117, 110, 107, 110, 111, 119, 110]

/-- `"%s:%d %s %s"`, without the line feed. -/
def knownHostsLine (addr : Bytes) (port : UInt16) (username : Option Bytes)
    (peerKey : Bytes) : Bytes :=
  addr ++ 58 :: (decimal port.toNat ++ 32 ::
    (username.getD textUnknown ++ 32 :: bytesToHex peerKey))

/-- What `sscanf` reads of a line. -/
structure HostEntry where
  addr : Bytes
  port : Int
  user : Bytes
  hex : Bytes

/-- `sscanf(line, "%63[^:]:%d %31s %64s", ..)` with four conversions. -/
def scanHostEntry (line : Bytes) : Option HostEntry := do
  let (addr, line) ← scanUntil 63 58 line
  let line ← scanChar 58 line
  let (port, line) ← strtol 10 line
  let (user, line) ← scanWord 31 line
  let (hex, _) ← scanWord 64 line
  return { addr := addr, port := port, user := user, hex := hex }

/-- The key that a line gives for a peer; `stale` is what the array
`entry_hex` holds before the line is read. -/
def hostKey (addr : Bytes) (port : UInt16) (stale : Mem) (line : Bytes) :
    Option Bytes :=
  if line.head? = some 35 then
    none
  else
    match scanHostEntry line with
    | none => none
    | some entry =>
        if entry.addr = addr ∧ entry.port = port.toNat then
          hexToBytes (memWrite stale 0 (entry.hex ++ [0])) 32
        else
          none

/-- The loop of `known_hosts_check`: the key of the first line that gives
one. -/
def knownHostsFind (addr : Bytes) (port : UInt16) :
    (Nat → Mem) → List Bytes → Option Bytes
  | _, [] => none
  | stale, line :: rest =>
      match hostKey addr port (stale 0) line with
      | some key => some key
      | none => knownHostsFind addr port (fun k => stale (k + 1)) rest

def Ipv4Text (addr : Bytes) : Prop :=
  ∃ a b c d : UInt8,
    addr =
      decimal a.toNat ++ 46 :: (decimal b.toNat ++ 46 ::
        (decimal c.toNat ++ 46 :: decimal d.toNat))

/-- The texts `inet_ntop` makes of an IPv6 address are among these: a group of
digits, which may be empty, a colon, and more digits, colons and dots. -/
def Ipv6Text (addr : Bytes) : Prop :=
  ∃ group rest,
    addr = group ++ 58 :: rest ∧ addr.length ≤ 45 ∧
      (∀ ch ∈ group, isDigitOf 16 ch = true) ∧
      ∀ ch ∈ rest, isDigitOf 16 ch = true ∨ ch = 58 ∨ ch = 46

/-- The arguments of a call of `known_hosts_add`. -/
structure KnownHost where
  addr : Bytes
  port : UInt16
  username : Option Bytes
  key : Bytes
  address : Ipv4Text addr ∨ Ipv6Text addr
  visible :
    ∀ ch ∈ username.getD textUnknown, isSpace ch = false ∧ ch ≠ 0
  keyLength : key.length = 32

namespace KnownHost

/-- The user name that is written. -/
def name (h : KnownHost) : Bytes :=
  h.username.getD textUnknown

def line (h : KnownHost) : Bytes :=
  knownHostsLine h.addr h.port h.username h.key

end KnownHost

/-- What `fgets` leaves of the lines behind their first 511 characters: each
of these pieces is read as a line of its own. -/
def strayPieces (hosts : List KnownHost) : List Bytes :=
  hosts.flatMap fun h => (fgetsPieces 511 (h.line ++ [10])).tail

/-- None of them reads as an entry of the peer. -/
def NoStrayEntry (hosts : List KnownHost) (h : KnownHost) : Prop :=
  ∀ piece ∈ strayPieces hosts, piece.head? ≠ some 35 →
    ∀ entry, scanHostEntry piece = some entry →
      ¬(entry.addr = h.addr ∧ entry.port = h.port.toNat)

theorem hexPair_hexByte (byte : UInt8) :
    hexPair (hexDigit (byte.toNat / 16)) (hexDigit (byte.toNat % 16)) =
      some byte := by
  have all :
      ∀ k : Fin 256,
        hexPair (hexDigit (k.val / 16)) (hexDigit (k.val % 16)) =
          some (UInt8.ofNat k.val) := by
    decide +kernel
  have known := all ⟨byte.toNat, byte.toNat_lt⟩
  rw [UInt8.ofNat_toNat] at known
  exact known

theorem length_bytesToHex (bytes : Bytes) :
    (bytesToHex bytes).length = 2 * bytes.length := by
  induction bytes with
  | nil =>
      rfl
  | cons byte rest inductionHypothesis =>
      rw [bytesToHex, List.flatMap_cons, List.length_append,
        ← bytesToHex, inductionHypothesis, List.length_cons, hexByte]
      simp only [List.length_cons, List.length_nil]
      omega

theorem getD_bytesToHex
    {bytes : Bytes} {i : Nat} (inside : i < bytes.length) :
    (bytesToHex bytes).getD (i * 2) 0 =
        hexDigit ((bytes.getD i 0).toNat / 16) ∧
      (bytesToHex bytes).getD (i * 2 + 1) 0 =
        hexDigit ((bytes.getD i 0).toNat % 16) := by
  induction bytes generalizing i with
  | nil =>
      cases inside
  | cons byte rest inductionHypothesis =>
      cases i with
      | zero =>
          exact ⟨rfl, rfl⟩
      | succ i =>
          have shift : (i + 1) * 2 = i * 2 + 2 := by
            omega
          rw [shift]
          exact inductionHypothesis (Nat.lt_of_succ_lt_succ inside)

/-- Every digit of a key is visible. -/
theorem bytesToHex_visible (bytes : Bytes) :
    ∀ ch ∈ bytesToHex bytes, isSpace ch = false ∧ ch ≠ 0 ∧ ch ≠ 10 := by
  have all :
      ∀ k : Fin 16,
        isSpace (hexDigit k.val) = false ∧ hexDigit k.val ≠ 0 ∧
          hexDigit k.val ≠ 10 := by
    decide
  intro ch member
  obtain ⟨byte, -, digit⟩ := List.mem_flatMap.mp member
  have small := byte.toNat_lt
  rcases List.mem_cons.mp digit with rfl | low
  · exact all ⟨byte.toNat / 16, by omega⟩
  · rw [List.mem_singleton.mp low]
    exact all ⟨byte.toNat % 16, by omega⟩

/-- The characters of a string in memory. -/
theorem memWrite_text
    (stale : Mem) {text : Bytes} {i : Nat} (inside : i < text.length) :
    memWrite stale 0 (text ++ [0]) i = text.getD i 0 := by
  unfold memWrite
  rw [if_pos (by simp; omega), Nat.sub_zero,
    List.getD_append _ _ _ _ inside]

/-- `hex_to_bytes` inverts `bytes_to_hex`. -/
theorem hexToBytes_bytesToHex
    (stale : Mem) {bytes : Bytes} {len : Nat} (inside : len ≤ bytes.length) :
    hexToBytes (memWrite stale 0 (bytesToHex bytes ++ [0])) len =
      some (bytes.take len) := by
  induction len with
  | zero =>
      rfl
  | succ len inductionHypothesis =>
      obtain ⟨high, low⟩ := getD_bytesToHex (i := len) inside
      have room : len * 2 + 1 < (bytesToHex bytes).length := by
        rw [length_bytesToHex]
        omega
      rw [hexToBytes, inductionHypothesis (by omega),
        memWrite_text stale (by omega), memWrite_text stale room, high, low]
      change (hexPair _ _).bind _ = _
      rw [hexPair_hexByte]
      change some (bytes.take len ++ [bytes.getD len 0]) = _
      rw [List.take_add_one, List.getElem?_eq_getElem inside,
        List.getD_eq_getElem _ _ inside]
      rfl

theorem hexToBytes_none
    {hex : Mem} {i : Nat}
    (bad : hexPair (hex (i * 2)) (hex (i * 2 + 1)) = none) {len : Nat}
    (later : i < len) : hexToBytes hex len = none := by
  induction len with
  | zero =>
      cases later
  | succ len inductionHypothesis =>
      rw [hexToBytes]
      rcases Nat.lt_or_eq_of_le (Nat.le_of_lt_succ later) with early | here
      · rw [inductionHypothesis early]
        rfl
      · subst here
        rw [bad]
        cases hexToBytes hex i with
        | none => rfl
        | some bytes => rfl

section Line

variable (h : KnownHost) (ipv4 : Ipv4Text h.addr)

/-- What is written behind the port. -/
def KnownHost.rest : Bytes :=
  h.name ++ 32 :: (bytesToHex h.key ++ [10])

end Line

/-! ## What is read of a file -/

section Find

variable {addr : Bytes} {port : UInt16}

theorem knownHostsFind_none
    {lines : List Bytes}
    (never : ∀ line ∈ lines, ∀ stale, hostKey addr port stale line = none)
    (stale : Nat → Mem) : knownHostsFind addr port stale lines = none := by
  induction lines generalizing stale with
  | nil =>
      rfl
  | cons line rest inductionHypothesis =>
      rw [knownHostsFind, never line List.mem_cons_self]
      apply inductionHypothesis
      exact fun other member => never other (List.mem_cons_of_mem line member)

end Find

/-! ## First use -/

section FirstUse

variable {before : List KnownHost} {h : KnownHost}

/-- The key that the line of a peer gives for it. -/
def KnownHost.readBack (h : KnownHost) (stale : Nat → Mem) : Option Bytes :=
  knownHostsFind h.addr h.port stale (fgetsPieces 511 (h.line ++ [10]))

theorem NoStrayEntry.find
    (noStray : NoStrayEntry before h) (stale : Nat → Mem) :
    knownHostsFind h.addr h.port stale (strayPieces before) = none := by
  apply knownHostsFind_none
  intro piece member memory
  unfold hostKey
  split
  · rfl
  · rename_i noComment
    cases read : scanHostEntry piece with
    | none =>
        rfl
    | some entry =>
        exact if_neg (noStray piece member noComment entry read)

end FirstUse

end PqComm
