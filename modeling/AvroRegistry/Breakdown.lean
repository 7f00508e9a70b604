import AvroRegistry.Json.Basic

/-!
# Breakdowns

What happens when an operation meets a value of a shape it was not made for: a member that is not
there, a value of the wrong kind, a number out of range. These are not findings about a schema or a
registry; where a rule turns one into such a finding, it does so explicitly.
-/

namespace AvroRegistry

/-- An operation on a value that does not support it. -/
inductive Breakdown where
  /-- A member that the operation needs is missing. -/
  | missingKey (key : String)
  /-- The value is of a kind the operation is not defined on. -/
  | wrongKind
  /-- The value lacks a capability that the operation relies on. -/
  | noAttribute
  /-- A value of the right kind that the operation cannot accept. -/
  | badValue (text : String)
  /-- A number too large for its destination. -/
  | outOfRange (text : String)
  /-- A text that is not JSON. -/
  | notJson (text : String)
  /-- Bytes that are not text. -/
  | notText (text : String)
  /-- A file that the operating system refuses, with the class of the refusal. -/
  | fileRefused (kind text : String)
  /-- A bounded search that ran out of steps. -/
  | exhausted
  deriving DecidableEq, Repr

/-- An integer as a real number. Beyond some size there is none, since rounding would give an
infinity. -/
def Binary64.convert (n : Int) : Except Breakdown Binary64 :=
  match Binary64.ofInt n with
  | .infinite _ => .error (.outOfRange "int too large to convert to float")
  | x => .ok x

end AvroRegistry
