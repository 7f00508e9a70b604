import AvroRegistry.Json.Basic
import AvroRegistry.Number.Shortest

/-!
# JSON values as text

One printer and three layouts. `compact` sorts the members of every object by the code points of
their keys and writes no blanks: it is the canonical text of a schema, so two values that differ
only in the order of members have the same text. `spaced` keeps the order of members and puts a
blank after every comma and colon: it is the raw text of a schema that was given as a value.
`indented` sorts and breaks lines: it is what a command prints.

Texts are pure ASCII: any other character is written as one `\uXXXX` escape or, beyond the basic
plane, as a surrogate pair.
-/

namespace AvroRegistry.Json

/-! ## Texts -/

/-- Four lower-case hexadecimal digits. -/
def hex4 (n : Nat) : List Char :=
  [Nat.digitChar (n / 4096 % 16), Nat.digitChar (n / 256 % 16), Nat.digitChar (n / 16 % 16),
    Nat.digitChar (n % 16)]

/-- The escape of one UTF-16 unit. -/
def unitEscape (n : Nat) : List Char := '\\' :: 'u' :: hex4 n

/-- A character as it stands in a quoted text. -/
def escapeChar (c : Char) : List Char :=
  if c = '"' then ['\\', '"']
  else if c = '\\' then ['\\', '\\']
  else if c = '\n' then ['\\', 'n']
  else if c = '\r' then ['\\', 'r']
  else if c = '\t' then ['\\', 't']
  else if c = '\x0c' then ['\\', 'f']
  else if c = '\x08' then ['\\', 'b']
  else
    let n := c.toNat
    if 0x20 ≤ n ∧ n ≤ 0x7e then [c]
    else if n < 0x10000 then unitEscape n
    else unitEscape (0xd800 + (n - 0x10000) / 0x400) ++ unitEscape (0xdc00 + (n - 0x10000) % 0x400)

/-- A text in double quotes. -/
def quoted (s : String) : List Char := '"' :: (s.toList.flatMap escapeChar ++ ['"'])

/-! ## Numbers -/

/-- An integer in decimal. -/
def decimal (n : Int) : List Char :=
  if n < 0 then '-' :: Nat.toDigits 10 n.natAbs else Nat.toDigits 10 n.natAbs

/-- How JSON text writes the numbers that have no digits. -/
def numberStyle : Binary64.NumberStyle := { infinity := "Infinity", notANumber := "NaN" }

/-! ## Layouts -/

/-- The free choices of a printer. `newline d` is what stands before an item at depth `d`. -/
structure Layout where
  sortKeys : Bool
  comma : List Char
  colon : List Char
  newline : Nat → List Char

/-- Sorted members, no blanks. -/
def compact : Layout := ⟨true, [','], [':'], fun _ => []⟩

/-- Members in their own order, a blank after every comma and colon. -/
def spaced : Layout := ⟨false, [',', ' '], [':', ' '], fun _ => []⟩

/-- Sorted members, each on a line of its own, two blanks deeper than what holds it. -/
def indented : Layout :=
  ⟨true, [','], [':', ' '], fun depth => '\n' :: List.replicate (2 * depth) ' '⟩

/-- Written items between brackets: nothing between them if there are none, else each after a
newline, the closing bracket after one of the outer depth. -/
def bracket (l : Layout) (depth : Nat) (opening closing : Char) : List (List Char) → List Char
  | [] => [opening, closing]
  | first :: rest =>
    opening :: (l.newline (depth + 1) ++ first ++
      rest.flatMap (fun item => l.comma ++ l.newline (depth + 1) ++ item) ++
      l.newline depth ++ [closing])

/-- A written member. -/
def writtenMember (l : Layout) (member : String × List Char) : List Char :=
  quoted member.1 ++ l.colon ++ member.2

/-- Members in the order in which a layout writes them. -/
def arrange {α : Type} (l : Layout) (members : List (String × α)) : List (String × α) :=
  if l.sortKeys then members.mergeSort fun m m' => decide (m.1 ≤ m'.1) else members

mutual

/-- The text of a value at a depth. -/
def write (l : Layout) (depth : Nat) : Json → List Char
  | null => ['n', 'u', 'l', 'l']
  | bool b => if b then ['t', 'r', 'u', 'e'] else ['f', 'a', 'l', 's', 'e']
  | int n => decimal n
  | float x => (x.render numberStyle).toList
  | str s => quoted s
  | arr items => bracket l depth '[' ']' (writeItems l (depth + 1) items)
  | obj members =>
    bracket l depth '{' '}'
      ((arrange l (writeMembers l (depth + 1) members)).map (writtenMember l))

/-- The texts of the values of a list. -/
def writeItems (l : Layout) (depth : Nat) : List Json → List (List Char)
  | [] => []
  | v :: rest => write l depth v :: writeItems l depth rest

/-- The texts of the values of a list of members, each with its key. -/
def writeMembers (l : Layout) (depth : Nat) : List (String × Json) → List (String × List Char)
  | [] => []
  | (k, v) :: rest => (k, write l depth v) :: writeMembers l depth rest

end

/-- The text of a value in a layout. -/
def encode (l : Layout) (v : Json) : String := String.ofList (write l 0 v)

/-! ## Small facts -/

theorem writeItems_eq_map (l : Layout) (depth : Nat) (items : List Json) :
    writeItems l depth items = items.map (write l depth) := by
  induction items with
  | nil => rfl
  | cons v rest ih => simp [writeItems, ih]

theorem writeMembers_eq_map (l : Layout) (depth : Nat) (members : List (String × Json)) :
    writeMembers l depth members = members.map fun m => (m.1, write l depth m.2) := by
  induction members with
  | nil => rfl
  | cons m rest ih =>
    obtain ⟨k, v⟩ := m
    simp [writeMembers, ih]

end AvroRegistry.Json
