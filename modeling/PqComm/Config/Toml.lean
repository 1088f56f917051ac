import PqComm.Group.Rooms
import PqComm.Lib.LastWrite
import PqComm.Lib.Text

/-!
# The configuration file

`config_load` reads a file line by line.  A line opens a section, gives a
value to one of the nine settings, or does nothing, and the value of a setting
is that of the last line that sets it.
-/

namespace PqComm

open Lib

/-- `config_t`. -/
structure Config where
  localPort : UInt16
  localPortAlt : UInt16
  remotePort : UInt16
  remoteAddr : Bytes
  discoveryPort : UInt16
  discoveryEnabled : Bool
  multipathEnabled : Bool
  pathCount : Int32
  identityKeyHex : Bytes
  deriving DecidableEq

/-- `config_load_default`. -/
def configLoadDefault : Config :=
  { localPort := 9001
    localPortAlt := 9003
    remotePort := 9002
    remoteAddr := snprintfText 64 (ascii "::1")
    discoveryPort := 0
    discoveryEnabled := false
    multipathEnabled := false
    pathCount := 1
    identityKeyHex := [] }

/-! ## One line -/

def isBlank (ch : UInt8) : Bool :=
  ch == 32 || ch == 9

def isTrailing (ch : UInt8) : Bool :=
  ch == 32 || ch == 9 || ch == 13 || ch == 10

/-- `trim`.  Leading blanks are skipped by the local pointer only and stay in
the string; the end moves back to the first other character at most. -/
def trim (s : Bytes) : Bytes :=
  s.takeWhile isBlank ++
    match s.dropWhile isBlank with
    | [] => []
    | first :: rest => first :: rest.rdropWhile isTrailing

/-- `sscanf(line, "%63[^=] = %191[^#]", key, val)` with two conversions. -/
def scanSetting (line : Bytes) : Option (Bytes × Bytes) := do
  let (key, line) ← scanUntil 63 61 line
  let line ← scanChar 61 (line.dropWhile isSpace)
  let (val, _) ← scanUntil 191 35 (line.dropWhile isSpace)
  return (key, val)

/-- The settings that a file can give. -/
inductive Setting where
  | localPort
  | localPortAlt
  | remotePort
  | remoteAddr
  | discoveryPort
  | discoveryEnabled
  | multipathEnabled
  | pathCount
  | identityKeyHex
  deriving DecidableEq

/-- The comparisons of `parse_line`. -/
def settingOf (sectionName key : Bytes) : Option Setting :=
  if sectionName = ascii "transport" then
    if key = ascii "local_port" then some .localPort
    else if key = ascii "local_port_alt" then some .localPortAlt
    else if key = ascii "remote_port" then some .remotePort
    else if key = ascii "remote_addr" then some .remoteAddr
    else none
  else if sectionName = ascii "discovery" then
    if key = ascii "port" then some .discoveryPort
    else if key = ascii "enabled" then some .discoveryEnabled
    else none
  else if sectionName = ascii "multipath" then
    if key = ascii "enabled" then some .multipathEnabled
    else if key = ascii "path_count" then some .pathCount
    else none
  else if sectionName = ascii "identity" then
    if key = ascii "key_hex" then some .identityKeyHex
    else none
  else
    none

/-- The assignments of `parse_line`. -/
def Config.assign (cfg : Config) (setting : Setting) (val : Bytes) : Config :=
  match setting with
  | .localPort => { cfg with localPort := UInt16.ofInt (atoi val).toInt }
  | .localPortAlt =>
      { cfg with localPortAlt := UInt16.ofInt (atoi val).toInt }
  | .remotePort => { cfg with remotePort := UInt16.ofInt (atoi val).toInt }
  | .remoteAddr => { cfg with remoteAddr := snprintfText 64 val }
  | .discoveryPort =>
      { cfg with discoveryPort := UInt16.ofInt (atoi val).toInt }
  | .discoveryEnabled => { cfg with discoveryEnabled := atoi val != 0 }
  | .multipathEnabled => { cfg with multipathEnabled := atoi val != 0 }
  | .pathCount => { cfg with pathCount := atoi val }
  | .identityKeyHex => { cfg with identityKeyHex := snprintfText 128 val }

/-- `parse_line`. -/
def parseLine (line sectionName : Bytes) (cfg : Config) : Config :=
  match scanSetting line with
  | none => cfg
  | some (key, val) =>
      match settingOf sectionName (trim key) with
      | none => cfg
      | some setting => cfg.assign setting (trim val)

/-- One turn of the loop of `config_load`, on the section and what has been
read so far. -/
def configLine (state : Bytes × Config) (line : Bytes) : Bytes × Config :=
  match trim (cText line) with
  | [] => state
  | first :: rest =>
      if first = 35 then
        state
      else if first = 91 then
        if 93 ∈ rest then
          (snprintfText 64 (rest.takeWhile (· != 93)), state.2)
        else
          state
      else
        (state.1, parseLine (first :: rest) state.1 state.2)

/-- `config_load` on a file that may not be there, into a configuration that
is. -/
def configLoad (file : Option Bytes) : Int × Config :=
  match file with
  | none => (-1, configLoadDefault)
  | some text =>
      (0, ((fgetsPieces 255 text).foldl configLine
        ([], configLoadDefault)).2)

/-! ## What the lines of a file do -/

/-- What a setting reads as. -/
inductive SettingValue where
  | port (number : UInt16)
  | flag (on : Bool)
  | count (number : Int32)
  | text (chars : Bytes)
  deriving DecidableEq

def Config.read (cfg : Config) : Setting → SettingValue
  | .localPort => .port cfg.localPort
  | .localPortAlt => .port cfg.localPortAlt
  | .remotePort => .port cfg.remotePort
  | .remoteAddr => .text cfg.remoteAddr
  | .discoveryPort => .port cfg.discoveryPort
  | .discoveryEnabled => .flag cfg.discoveryEnabled
  | .multipathEnabled => .flag cfg.multipathEnabled
  | .pathCount => .count cfg.pathCount
  | .identityKeyHex => .text cfg.identityKeyHex

/-- The value that a text gives to a setting. -/
def Setting.given (setting : Setting) (val : Bytes) : SettingValue :=
  (configLoadDefault.assign setting val).read setting

theorem Config.read_assign_self
    (cfg : Config) (setting : Setting) (val : Bytes) :
    (cfg.assign setting val).read setting = setting.given val := by
  cases setting
  all_goals rfl

theorem Config.read_assign_of_ne
    (cfg : Config) (val : Bytes) {setting other : Setting}
    (different : other ≠ setting) :
    (cfg.assign setting val).read other = cfg.read other := by
  cases setting
  all_goals
    cases other
    all_goals first | rfl | exact absurd rfl different

theorem Config.ext_read
    {left right : Config}
    (same : ∀ setting, left.read setting = right.read setting) :
    left = right := by
  cases left
  cases right
  congr 1
  · exact SettingValue.port.inj (same .localPort)
  · exact SettingValue.port.inj (same .localPortAlt)
  · exact SettingValue.port.inj (same .remotePort)
  · exact SettingValue.text.inj (same .remoteAddr)
  · exact SettingValue.port.inj (same .discoveryPort)
  · exact SettingValue.flag.inj (same .discoveryEnabled)
  · exact SettingValue.flag.inj (same .multipathEnabled)
  · exact SettingValue.count.inj (same .pathCount)
  · exact SettingValue.text.inj (same .identityKeyHex)

/-- The configuration as a state that is written one setting at a time. -/
def configFields : Fields Config Setting Bytes SettingValue where
  read := Config.read
  write := Config.assign
  given := Setting.given
  read_write_self := Config.read_assign_self
  read_write_of_ne := fun cfg val => cfg.read_assign_of_ne val
  ext := Config.ext_read

/-- What a line does. -/
inductive LineEffect where
  | idle
  | opens (sectionName : Bytes)
  | sets (setting : Setting) (val : Bytes)
  deriving DecidableEq

/-- The effect of a line that is neither a comment nor a header. -/
def keyEffect (sectionName line : Bytes) : LineEffect :=
  match scanSetting line with
  | none => .idle
  | some (key, val) =>
      match settingOf sectionName (trim key) with
      | none => .idle
      | some setting => .sets setting (trim val)

/-- The effect of a line that has been trimmed. -/
def trimmedEffect (sectionName : Bytes) : Bytes → LineEffect
  | [] => .idle
  | first :: rest =>
      if first = 35 then
        .idle
      else if first = 91 then
        if 93 ∈ rest then
          .opens (snprintfText 64 (rest.takeWhile (· != 93)))
        else
          .idle
      else
        keyEffect sectionName (first :: rest)

/-- The effect of a line in a section. -/
def lineEffect (sectionName line : Bytes) : LineEffect :=
  trimmedEffect sectionName (trim (cText line))

def LineEffect.apply (state : Bytes × Config) : LineEffect → Bytes × Config
  | .idle => state
  | .opens sectionName => (sectionName, state.2)
  | .sets setting val => (state.1, state.2.assign setting val)

/-- What the lines assign, when the first of them stands in the section
`sectionName`. -/
def assignments (sectionName : Bytes) :
    List Bytes → List (Setting × Bytes)
  | [] => []
  | line :: lines =>
      match lineEffect sectionName line with
      | .idle => assignments sectionName lines
      | .opens opened => assignments opened lines
      | .sets setting val => (setting, val) :: assignments sectionName lines

theorem parseLine_eq
    (line sectionName : Bytes) (cfg : Config) :
    (sectionName, parseLine line sectionName cfg) =
      (keyEffect sectionName line).apply (sectionName, cfg) := by
  unfold parseLine keyEffect
  cases scanSetting line with
  | none =>
      rfl
  | some read =>
      dsimp only
      cases settingOf sectionName (trim read.1) with
      | none =>
          rfl
      | some setting =>
          rfl

theorem configLine_eq (state : Bytes × Config) (line : Bytes) :
    configLine state line = (lineEffect state.1 line).apply state := by
  unfold configLine lineEffect
  cases trim (cText line) with
  | nil =>
      rfl
  | cons first rest =>
      rw [trimmedEffect]
      dsimp only
      by_cases comment : first = 35
      · rw [if_pos comment, if_pos comment]
        rfl
      · rw [if_neg comment, if_neg comment]
        by_cases header : first = 91
        · rw [if_pos header, if_pos header]
          by_cases closed : 93 ∈ rest
          · rw [if_pos closed, if_pos closed]
            rfl
          · rw [if_neg closed, if_neg closed]
            rfl
        · rw [if_neg header, if_neg header]
          exact parseLine_eq (first :: rest) state.1 state.2

/-- The lines of a file write what they assign. -/
theorem foldl_configLine
    (lines : List Bytes) (sectionName : Bytes) (cfg : Config) :
    (lines.foldl configLine (sectionName, cfg)).2 =
      configFields.writes cfg (assignments sectionName lines) := by
  induction lines generalizing sectionName cfg with
  | nil =>
      rfl
  | cons line lines inductionHypothesis =>
      rw [List.foldl_cons, configLine_eq, assignments]
      cases lineEffect sectionName line with
      | idle =>
          exact inductionHypothesis sectionName cfg
      | opens opened =>
          exact inductionHypothesis opened cfg
      | sets setting val =>
          exact inductionHypothesis sectionName (cfg.assign setting val)

theorem configLoad_some (text : Bytes) :
    configLoad (some text) =
      (0, configFields.writes configLoadDefault
        (assignments [] (fgetsPieces 255 text))) := by
  rw [configLoad, foldl_configLine]

end PqComm
