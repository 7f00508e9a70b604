import AvroRegistry.Fault
import AvroRegistry.Number.Word
import AvroRegistry.Text.Letters
import AvroRegistry.Text.Numeral

/-!
# Settings

What a registry is started with: the mode that holds until one is set, the place of its file, how
the file is used, and how it logs. `Settings.read` takes them from given values and from an
environment, values first, and lists everything that is wrong, in the order of the settings.

Each setting has its own way of reading a value, a `Reading`; what can be wrong is a `Complaint`.
-/

namespace AvroRegistry

/-! ## Settings -/

/-- How log lines are written. -/
inductive LogFormat where
  | text
  | json
  deriving DecidableEq, Repr

/-- The name of a log format. -/
def LogFormat.name : LogFormat → String
  | text => "text"
  | json => "json"

/-- What a registry is started with. -/
structure Settings where
  defaultMode : Compatibility.Mode := .backward
  storagePath : Option String := none
  writeAhead : Bool := true
  busyTimeout : Nat := 5000
  logLevel : String := "INFO"
  logFormat : LogFormat := .text
  deriving DecidableEq

namespace Settings

/-! ## What can be wrong with a value -/

/-- What is wrong with the value of a setting. -/
inductive Complaint where
  | notText
  | refused (reason : String)
  | notFlag
  | unreadableFlag
  | notInteger
  | unreadableInteger
  | longInteger
  | fractional
  | notFinite
  | negative
  | unknownSetting
  deriving DecidableEq, Repr

/-- The kind of a complaint. -/
def Complaint.kind : Complaint → String
  | notText => "string_type"
  | refused _ => "value_error"
  | notFlag => "bool_type"
  | unreadableFlag => "bool_parsing"
  | notInteger => "int_type"
  | unreadableInteger => "int_parsing"
  | longInteger => "int_parsing_size"
  | fractional => "int_from_float"
  | notFinite => "finite_number"
  | negative => "greater_than_equal"
  | unknownSetting => "extra_forbidden"

/-- The message of a complaint. -/
def Complaint.message : Complaint → String
  | notText => "Input should be a valid string"
  | refused reason => "Value error, " ++ reason
  | notFlag => "Input should be a valid boolean"
  | unreadableFlag => "Input should be a valid boolean, unable to interpret input"
  | notInteger => "Input should be a valid integer"
  | unreadableInteger =>
    "Input should be a valid integer, unable to parse string as an integer"
  | longInteger => "Unable to parse input string as an integer, exceeded maximum size"
  | fractional => "Input should be a valid integer, got a number with a fractional part"
  | notFinite => "Input should be a finite number"
  | negative => "Input should be greater than or equal to 0"
  | unknownSetting => "Extra inputs are not permitted"

/-- A complaint about a setting. -/
structure Issue where
  setting : String
  complaint : Complaint
  deriving DecidableEq, Repr

/-! ## Reading single values -/

/-- A way of reading a value. -/
abbrev Reading (α : Type) := Json → Except Complaint α

/-- Reads a text. -/
def readText : Reading String
  | .str s => .ok s
  | _ => .error .notText

/-- Reads a text that may be missing. -/
def readOptionalText : Reading (Option String)
  | .null => .ok none
  | v => (readText v).map some

/-- Reads a mode by its name. -/
def readMode : Reading Compatibility.Mode := fun v => do
  let s ← readText v
  match Compatibility.Mode.ofText? s with
  | some mode => .ok mode
  | none => .error (.refused (invalidModeMessage v))

/-- Reads a log format by its name in any case. -/
def readLogFormat : Reading LogFormat := fun v => do
  let s := Text.lowerCase (← readText v)
  if s = "text" then .ok .text
  else if s = "json" then .ok .json
  else .error (.refused ("log_format must be 'text' or 'json', got '" ++ s ++ "'"))

/-- The words for yes, in lower case. -/
def yesWords : List String := ["1", "on", "t", "true", "y", "yes"]

/-- The words for no, in lower case. -/
def noWords : List String := ["0", "off", "f", "false", "n", "no"]

/-- The flag that a number stands for: zero or one. -/
def flagOfInt (n : Int) : Except Complaint Bool :=
  if n = 0 then .ok false else if n = 1 then .ok true else .error .unreadableFlag

/-- Whether a real number lies strictly between the bounds of the integers of 64 bits. -/
def isWithinWords (x : Binary64) : Bool :=
  Binary64.intLt (-0x8000000000000000) x && x.ltInt 0x8000000000000000

/-- Reads a flag: a truth value, zero or one as any kind of number, or a word for yes or no. A
number that is no integer of 64 bits does not count as a flag at all. -/
def readFlag : Reading Bool
  | .bool b => .ok b
  | .int n => if isWord n then flagOfInt n else .error .notFlag
  | .float x =>
    match x.toInt? with
    | some n => if isWithinWords x then flagOfInt n else .error .notFlag
    | none => .error .notFlag
  | .str s =>
    let word := String.ofList (s.toList.map Char.toLower)
    if yesWords.contains word then .ok true
    else if noWords.contains word then .ok false
    else .error .unreadableFlag
  | _ => .error .notFlag

/-- Reads an integer: an integer, a real number of 64 bits without a fraction, a truth value, or a
text that spells one. -/
def readInteger : Reading Int
  | .int n => .ok n
  | .bool b => .ok (if b then 1 else 0)
  | .float x =>
    match x.toInt? with
    | some n => if isWithinWords x then .ok n else .error .longInteger
    | none =>
      match x with
      | .finite .. => .error .fractional
      | _ => .error .notFinite
  | .str s =>
    match Text.looseInteger s with
    | .value n => .ok n
    | .tooLong => .error .longInteger
    | .unreadable => .error .unreadableInteger
  | _ => .error .notInteger

/-- Reads an integer that is not negative. -/
def readCount : Reading Nat := fun v => do
  let n ← readInteger v
  if n < 0 then .error .negative else .ok n.toNat

/-! ## Reading all settings -/

/-- The names of the settings, in their order. -/
def names : List String :=
  ["default_compatibility", "storage_path", "sqlite_wal_mode", "sqlite_busy_timeout_ms",
    "log_level", "log_format"]

/-- Where settings come from: values given under their names, and the variables of an environment,
which carry a common head. Both are written in any case. -/
structure Sources where
  values : List (String × Json) := []
  environment : List (String × String) := []

/-- What the name of a setting is headed by in an environment. -/
def environmentHead : String := "schemahub_"

/-- The last variable of an environment that is named for a setting. -/
def fromEnvironment? (setting : String) (environment : List (String × String)) : Option String :=
  (environment.reverse.find? fun v => Text.lowerCase v.1 == environmentHead ++ setting).map (·.2)

/-- The first value that is given for a setting. -/
def given? (setting : String) (values : List (String × Json)) : Option Json :=
  (values.find? fun v => Text.lowerCase v.1 == setting).map (·.2)

/-- The value of a setting: the given one, or else that of the environment. -/
def Sources.value? (sources : Sources) (setting : String) : Option Json :=
  match given? setting sources.values with
  | some v => some v
  | none => (fromEnvironment? setting sources.environment).map .str

/-- A setting read from its sources, or its default; a complaint is noted and the default taken. -/
def Sources.take {α : Type} (sources : Sources) (setting : String) (default : α)
    (reading : Reading α) : StateM (List Issue) α := fun issues =>
  match sources.value? setting with
  | none => (default, issues)
  | some v =>
    match reading v with
    | .ok a => (a, issues)
    | .error complaint => (default, issues ++ [⟨setting, complaint⟩])

/-- The complaints about given values that are no settings. -/
def Sources.strangers (sources : Sources) : List Issue :=
  (Json.keys sources.values).filterMap fun key =>
    if names.contains (Text.lowerCase key) then none else some ⟨key, .unknownSetting⟩

/-- All settings, read in their order. -/
def readAll (sources : Sources) : StateM (List Issue) Settings := do
  let usual : Settings := {}
  let defaultMode ← sources.take "default_compatibility" usual.defaultMode readMode
  let storagePath ← sources.take "storage_path" usual.storagePath readOptionalText
  let writeAhead ← sources.take "sqlite_wal_mode" usual.writeAhead readFlag
  let busyTimeout ← sources.take "sqlite_busy_timeout_ms" usual.busyTimeout readCount
  let logLevel ← sources.take "log_level" usual.logLevel readText
  let logFormat ← sources.take "log_format" usual.logFormat readLogFormat
  return { defaultMode, storagePath, writeAhead, busyTimeout, logLevel, logFormat }

/-- The settings that sources give, or everything that is wrong with them. -/
def read (sources : Sources) : Except (List Issue) Settings :=
  let (settings, issues) := (readAll sources).run []
  match issues ++ sources.strangers with
  | [] => .ok settings
  | issues => .error issues

/-- The path of the registry's file, if there is to be one. -/
def file? (s : Settings) : Option String := s.storagePath.filter (· ≠ "")

/-! ## Showing -/

/-- The settings as an object. -/
def toJson (s : Settings) : Json :=
  .obj [("default_compatibility", .str s.defaultMode.name),
    ("storage_path", Json.ofText? s.storagePath), ("sqlite_wal_mode", .bool s.writeAhead),
    ("sqlite_busy_timeout_ms", .int s.busyTimeout), ("log_level", .str s.logLevel),
    ("log_format", .str s.logFormat.name)]

/-- What is logged about the settings when a registry starts. -/
def announcement (s : Settings) : Json :=
  .obj [("message", .str "Registry configuration loaded"),
    ("default_compatibility", .str s.defaultMode.name),
    ("storage_path", Json.ofText? s.storagePath), ("sqlite_wal_mode", .bool s.writeAhead),
    ("log_level", .str s.logLevel), ("log_format", .str s.logFormat.name)]

end Settings

end AvroRegistry
