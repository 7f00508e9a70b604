import AvroRegistry.Json.Basic
import AvroRegistry.Number.Shortest
import AvroRegistry.Text.Printable
import AvroRegistry.Text.Utf8

/-!
# JSON values as literals in messages

The form in which messages quote the values they complain about. Texts stand in single quotes,
unless they hold a single quote and no double one; characters that are not printable are escaped
by their code point. Null, truth values, arrays and objects are spelled `None`, `True`, `[1, 'a']`
and `{'k': 1}`, members in their own order.

`literal` is this form; `display` is the same except that a text on its own stands without quotes.
-/

namespace AvroRegistry.Json

/-! ## Texts -/

/-- The quote a text stands in. -/
def literalQuote (cs : List Char) : Char :=
  if cs.contains '\x27' && !cs.contains '"' then '"' else '\x27'

/-- The lowest `count` hexadecimal digits of a number. -/
def hexDigits (count n : Nat) : List Char :=
  (List.range count).map fun i => Nat.digitChar (n / Nat.pow 16 (count - 1 - i) % 16)

/-- A character as it stands between the given quotes. -/
def literalChar (quote c : Char) : List Char :=
  if c = quote ∨ c = '\\' then ['\\', c]
  else if c = '\n' then ['\\', 'n']
  else if c = '\r' then ['\\', 'r']
  else if c = '\t' then ['\\', 't']
  else if Text.isPrintable c then [c]
  else
    let n := c.toNat
    if n < 0x100 then '\\' :: 'x' :: hexDigits 2 n
    else if n < 0x10000 then '\\' :: 'u' :: hexDigits 4 n
    else '\\' :: 'U' :: hexDigits 8 n

/-- A text in quotes. -/
def literalText (s : String) : String :=
  let cs := s.toList
  let quote := literalQuote cs
  String.ofList (quote :: (cs.flatMap (literalChar quote) ++ [quote]))

/-! ## Values -/

/-- How literals write the numbers that have no digits. -/
def literalNumberStyle : Binary64.NumberStyle := { infinity := "inf", notANumber := "nan" }

mutual

/-- A value as a literal. -/
def literal : Json → String
  | null => "None"
  | bool b => if b then "True" else "False"
  | int n => toString n
  | float x => x.render literalNumberStyle
  | str s => literalText s
  | arr items => "[" ++ ", ".intercalate (literalItems items) ++ "]"
  | obj members => "\x7b" ++ ", ".intercalate (literalMembers members) ++ "\x7d"

/-- The values of a list as literals. -/
def literalItems : List Json → List String
  | [] => []
  | v :: rest => literal v :: literalItems rest

/-- The members of an object as literals. -/
def literalMembers : List (String × Json) → List String
  | [] => []
  | (k, v) :: rest => (literalText k ++ ": " ++ literal v) :: literalMembers rest

end

/-- A value in running text: a text stands as it is, anything else as a literal. -/
def display : Json → String
  | str s => s
  | v => literal v

/-- A list of texts as a literal. -/
def literalTexts (texts : List String) : String := literal (arr (texts.map str))

end AvroRegistry.Json
