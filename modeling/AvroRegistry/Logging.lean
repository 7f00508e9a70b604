import AvroRegistry.Settings

/-!
# Logging

How a registry logs, as its settings ask: a level below which nothing is written, and a single
handler that writes to the error stream, so that results on the output stream stay readable for
programs.
-/

namespace AvroRegistry

/-- Where log lines go. -/
inductive LogTarget where
  | output
  | errors
  deriving DecidableEq, Repr

/-- What writes log lines. -/
structure LogHandler where
  format : LogFormat
  target : LogTarget
  deriving DecidableEq, Repr

/-- How a registry logs. -/
structure Logging where
  level : Nat
  handlers : List LogHandler
  deriving DecidableEq, Repr

namespace Logging

/-- The levels by name. -/
def levels : List (String × Nat) :=
  [("CRITICAL", 50), ("FATAL", 50), ("ERROR", 40), ("WARNING", 30), ("WARN", 30), ("INFO", 20),
    ("DEBUG", 10), ("NOTSET", 0)]

/-- The level of a name in any case. Two names stand for things that are no levels and cannot serve
as one; every other unknown name means the usual level. -/
def level? (name : String) : Except Breakdown Nat :=
  let name := String.ofList (Text.capitals name.toList)
  if name = "BASIC_FORMAT" then
    .error (.badValue "Unknown level: '%(levelname)s:%(name)s:%(message)s'")
  else if name = "_STYLES" then .error .wrongKind
  else .ok ((levels.lookup name).getD 20)

/-- How a registry with some settings logs. -/
def ofSettings (s : Settings) : Except Breakdown Logging := do
  let level ← level? s.logLevel
  return ⟨level, [⟨s.logFormat, .errors⟩]⟩

end Logging

end AvroRegistry
