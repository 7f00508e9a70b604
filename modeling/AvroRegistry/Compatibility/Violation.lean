import AvroRegistry.Json.Literal

/-!
# Violations

A violation is one place where a reader schema cannot read what a writer schema writes. It holds
its cause, the path to the place in the reader schema, and, once it is found while a mode is being
checked, the direction and the position of the earlier schema it was found against.
-/

namespace AvroRegistry.Compatibility

/-- Which of the two schemas was the reader: the new one in the backward direction, the old one in
the forward direction. -/
inductive Direction where
  | backward
  | forward
  deriving DecidableEq, Repr

/-- The name of a direction. -/
def Direction.name : Direction → String
  | .backward => "BACKWARD"
  | .forward => "FORWARD"

/-- Why a reader cannot read a writer at some place. -/
inductive Cause where
  | nameMismatch (writer reader : Json)
  | fixedSizeMismatch (writer reader : Json)
  | missingEnumSymbols (reader : Json) (symbols : List Json)
  | readerFieldMissingDefault (field : Json)
  | writerFieldRemoved (field : Json)
  | typeMismatch (reader writer : String)
  | missingUnionBranch (writer : String)

namespace Cause

/-- The name of the kind of a cause. -/
def kind : Cause → String
  | nameMismatch .. => "NAME_MISMATCH"
  | fixedSizeMismatch .. => "FIXED_SIZE_MISMATCH"
  | missingEnumSymbols .. => "MISSING_ENUM_SYMBOLS"
  | readerFieldMissingDefault .. => "READER_FIELD_MISSING_DEFAULT_VALUE"
  | writerFieldRemoved .. => "WRITER_FIELD_REMOVED_WITHOUT_DEFAULT"
  | typeMismatch .. => "TYPE_MISMATCH"
  | missingUnionBranch .. => "MISSING_UNION_BRANCH"

/-- The message of a cause. -/
def message : Cause → String
  | nameMismatch writer reader =>
    "Expected name '" ++ writer.display ++ "', found '" ++ reader.display ++ "'"
  | fixedSizeMismatch writer reader =>
    "Expected size " ++ writer.display ++ ", found " ++ reader.display
  | missingEnumSymbols reader symbols =>
    "Reader enum '" ++ reader.display ++ "' is missing symbols " ++ (Json.arr symbols).literal
  | readerFieldMissingDefault field =>
    "Field '" ++ field.display ++ "' is missing from the writer and has no default value"
  | writerFieldRemoved field => "Required field '" ++ field.display ++ "' was removed"
  | typeMismatch reader writer =>
    "Reader type '" ++ reader ++ "' cannot read writer type '" ++ writer ++ "'"
  | missingUnionBranch writer =>
    "Reader union has no branch for writer type '" ++ writer ++ "'"

end Cause

/-- A place where a reader cannot read a writer. -/
structure Violation where
  cause : Cause
  path : String
  direction : Option Direction := none
  reference : Option Nat := none

namespace Violation

/-- The path as it is shown; the place of the whole schema is a slash. -/
def shownPath (v : Violation) : String := if v.path = "" then "/" else v.path

/-- The violation in one line. -/
def line (v : Violation) : String :=
  (match v.direction with
    | some d => "[" ++ d.name ++ "] "
    | none => "") ++ v.cause.kind ++ ": " ++ v.shownPath ++ " - " ++ v.cause.message

/-- The violation as an object. -/
def toJson (v : Violation) : Json :=
  .obj [("kind", .str v.cause.kind), ("path", .str v.shownPath),
    ("message", .str v.cause.message),
    ("direction", .str (match v.direction with | some d => d.name | none => "")),
    ("reference_index", match v.reference with | some i => .int i | none => .null)]

end Violation

end AvroRegistry.Compatibility
