import AvroRegistry.Json.Literal
import AvroRegistry.Json.Order
import AvroRegistry.Number.Word
import AvroRegistry.Text.Numeral

/-!
# Cells

What a cell of a table holds: nothing, an integer of 64 bits, a real number, or a text. A value is
bound to a cell as it is, and a column then converts it to its own kind as far as nothing is lost: a
text column turns numbers into texts (`asText?`), a numeric column turns texts that spell numbers
into numbers (`asNumber`).

Cells have an order, in which numbers come before texts; a cell that holds nothing is the same as no
other.
-/

namespace AvroRegistry

/-- What a cell of a table holds. -/
inductive Cell where
  | empty
  | integer (n : Int)
  | real (x : Binary64)
  | text (s : String)
  deriving DecidableEq, Repr

/-- Why a table does not do what is asked. -/
inductive TableTrouble where
  /-- A value at a position is of a kind that no cell holds. -/
  | unsupported (position : Nat) (kind : String)
  /-- The id of a row is no integer. -/
  | mismatch
  /-- A column that needs a value has none. -/
  | missingValue (column : String)
  /-- Another row has the same key, which consists of these columns. -/
  | duplicateKey (columns : String)
  deriving DecidableEq, Repr

/-- Why an operation on a table did not happen. -/
inductive TableFailure where
  | trouble (t : TableTrouble)
  | breakdown (b : Breakdown)
  deriving DecidableEq, Repr

/-- The breakdown on an integer that no cell can hold. -/
def cellOverflow : Breakdown := .outOfRange "Python int too large to convert to SQLite INTEGER"

namespace Cell

/-- The cell that a value is bound to. -/
def bind (position : Nat) : Json → Except TableFailure Cell
  | .null => .ok .empty
  | .bool b => .ok (.integer (if b then 1 else 0))
  | .int n => if isWord n then .ok (.integer n) else .error (.breakdown cellOverflow)
  | .float .nan => .ok .empty
  | .float x => .ok (.real x)
  | .str s => .ok (.text s)
  | v => .error (.trouble (.unsupported position v.kindName))

/-- A cell as a value. -/
def toJson : Cell → Json
  | empty => .null
  | integer n => .int n
  | real x => .float x
  | text s => .str s

/-- The cell that a value is. -/
def ofJson? : Json → Option Cell
  | .null => some empty
  | .int n => some (integer n)
  | .float x => some (real x)
  | .str s => some (text s)
  | _ => none

/-- A cell is read back from the value it is. -/
theorem ofJson?_toJson (c : Cell) : ofJson? c.toJson = some c := by cases c <;> rfl

/-! ## Columns -/

/-- How a text column writes a real number: fifteen digits, and a point in front of every
exponent. -/
def columnNumberStyle : Binary64.NumberStyle where
  digitCount := some 15
  highestPositional := 14
  pointBeforeExponent := true
  signOfZero := false
  infinity := "Inf"
  notANumber := ""

/-- The text that a text column holds of a cell, if it holds any. -/
def asText? : Cell → Option String
  | empty => none
  | integer n => some (toString n)
  | real x => some (x.render columnNumberStyle)
  | text s => some s

/-- A real number as a numeric column holds it: an integer if it is one. -/
def ofReal (x : Binary64) : Cell :=
  match x.toInt? with
  | some n => if isWord n && isWord (n - 1) then integer n else real x
  | none => real x

/-- What a numeric column holds of a cell. -/
def asNumber : Cell → Cell
  | real x => ofReal x
  | text s =>
    match Text.columnNumber? s with
    | none => text s
    | some (.integer n) => if isWord n then integer n else ofReal (Binary64.ofInt n)
    | some (.real negative digits exponent) =>
      ofReal (Binary64.ofDecimal negative digits exponent)
  | c => c

/-! ## Comparison -/

/-- Whether two cells hold the same. -/
def same : Cell → Cell → Bool
  | integer n, integer m => n == m
  | integer n, real x => x.eqInt n
  | real x, integer n => x.eqInt n
  | real x, real y => x.eq y
  | text s, text t => s == t
  | _, _ => false

/-- Whether a cell comes before another one. -/
def less : Cell → Cell → Bool
  | empty, empty => false
  | empty, _ => true
  | _, empty => false
  | integer n, integer m => decide (n < m)
  | integer n, real x => Binary64.intLt n x
  | real x, integer n => x.ltInt n
  | real x, real y => x.lt y
  | text s, text t => decide (s < t)
  | _, text _ => true
  | text _, _ => false

end Cell

end AvroRegistry
