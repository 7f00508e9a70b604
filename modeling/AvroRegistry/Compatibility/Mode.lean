import AvroRegistry.Json.Basic
import AvroRegistry.Text.Blank
import AvroRegistry.Text.Letters

/-!
# Compatibility modes

A mode says which earlier versions of a subject a new schema is held against, and in which
direction: whether the new schema must read old data, whether the old schema must read new data.
-/

namespace AvroRegistry.Compatibility

/-- A compatibility mode. -/
inductive Mode where
  | none
  | backward
  | backwardTransitive
  | forward
  | forwardTransitive
  | full
  | fullTransitive
  deriving DecidableEq, Repr, Inhabited

namespace Mode

/-- All modes, in the order in which they are listed. -/
def all : List Mode :=
  [none, backward, backwardTransitive, forward, forwardTransitive, full, fullTransitive]

/-- The name of a mode. -/
def name : Mode → String
  | none => "NONE"
  | backward => "BACKWARD"
  | backwardTransitive => "BACKWARD_TRANSITIVE"
  | forward => "FORWARD"
  | forwardTransitive => "FORWARD_TRANSITIVE"
  | full => "FULL"
  | fullTransitive => "FULL_TRANSITIVE"

/-- Whether every earlier version is held against the new schema, and not only the latest. -/
def isTransitive : Mode → Bool
  | backwardTransitive => true
  | forwardTransitive => true
  | fullTransitive => true
  | _ => false

/-- Whether the new schema must be able to read data written with an old one. -/
def checksBackward : Mode → Bool
  | backward => true
  | backwardTransitive => true
  | full => true
  | fullTransitive => true
  | _ => false

/-- Whether an old schema must be able to read data written with the new one. -/
def checksForward : Mode → Bool
  | forward => true
  | forwardTransitive => true
  | full => true
  | fullTransitive => true
  | _ => false

/-- The mode that a text names, in any case and with blanks around it. -/
def ofText? (text : String) : Option Mode :=
  all.find? fun mode => mode.name.toList == Text.capitals (Text.trim text.toList)

/-- The mode that a value names; only texts name modes. -/
def ofJson? : Json → Option Mode
  | .str text => ofText? text
  | _ => Option.none

/-- Every mode is listed. -/
theorem mem_all (mode : Mode) : mode ∈ all := by cases mode <;> decide

/-- The name of a mode names that mode. -/
theorem ofText?_name (mode : Mode) : ofText? mode.name = some mode := by
  cases mode <;> decide +kernel

end Mode

end AvroRegistry.Compatibility
