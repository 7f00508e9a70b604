import AvroRegistry.Text.Blank

/-!
# Numerals in text

What counts as the text of a number outside JSON. `isRealNumeral` accepts the spellings of a real
number: an optional sign, digits of any script with a point and an exponent, single underscores
between digits, the words for infinity and NaN in any case, and blanks around all of it.
`digitsOnly` recognises a plain run of ASCII digits and `value` reads one. `columnNumber?` reads a
number the way a numeric column of a table does, and `looseInteger` an integer in a loose spelling,
with zeros in front, groups and a fraction that say nothing.
-/

namespace AvroRegistry.Text

/-! ## Digits of any script -/

/-- The zeros of the decimal digit scripts above ASCII in version 14 of the Unicode standard; each
is followed by the other nine digits of its script. -/
def scriptZeros : List Nat :=
  [
   0x660, 0x6f0, 0x7c0, 0x966, 0x9e6, 0xa66, 0xae6, 0xb66, 0xbe6, 0xc66, 0xce6,
   0xd66, 0xde6, 0xe50, 0xed0, 0xf20, 0x1040, 0x1090, 0x17e0, 0x1810, 0x1946, 0x19d0,
   0x1a80, 0x1a90, 0x1b50, 0x1bb0, 0x1c40, 0x1c50, 0xa620, 0xa8d0, 0xa900, 0xa9d0, 0xa9f0,
   0xaa50, 0xabf0, 0xff10, 0x104a0, 0x10d30, 0x11066, 0x110f0, 0x11136, 0x111d0, 0x112f0, 0x11450,
   0x114d0, 0x11650, 0x116c0, 0x11730, 0x118e0, 0x11950, 0x11c50, 0x11d50, 0x11da0, 0x16a60,
   0x16ac0, 0x16b50, 0x1d7ce, 0x1d7d8, 0x1d7e2, 0x1d7ec, 0x1d7f6, 0x1e140, 0x1e2f0, 0x1e950, 0x1fbf0
  ]

/-- The ASCII digit that a decimal digit of any script stands for, the space for a blank above
ASCII, and every other character itself. -/
def plain (c : Char) : Char :=
  let n := c.toNat
  if n < 0x7f then c
  else if isBlank c then ' '
  else match scriptZeros.find? fun first => decide (first ≤ n) && decide (n < first + 10) with
    | some first => Char.ofNat (0x30 + (n - first))
    | none => c

/-- The blanks of ASCII that may stand around a numeral. -/
def isPlainBlank (c : Char) : Bool :=
  c = ' ' || (0x09 ≤ c.toNat && c.toNat ≤ 0x0d)

/-- A text without the ASCII blanks at its ends. -/
def trimPlain (cs : List Char) : List Char :=
  ((cs.dropWhile isPlainBlank).reverse.dropWhile isPlainBlank).reverse

/-! ## Real numerals -/

/-- Whether every underscore stands between two digits; the flag says whether the character before
was a digit. -/
def underscoresSit (afterDigit : Bool) : List Char → Bool
  | [] => true
  | '_' :: c :: rest => afterDigit && c.isDigit && underscoresSit true rest
  | ['_'] => false
  | c :: rest => underscoresSit c.isDigit rest

/-- The parts of an unsigned decimal: the digits before and behind the point, the exponent, and
whether there is neither point nor exponent. -/
structure DecimalParts where
  whole : List Char
  fraction : List Char
  exponent : Int
  isInteger : Bool
  deriving DecidableEq, Repr

/-- The number that a run of ASCII digits stands for. -/
def value (cs : List Char) : Nat :=
  cs.foldl (fun n c => 10 * n + (c.toNat - '0'.toNat)) 0

/-- Whether a text is a non-empty run of ASCII digits. -/
def digitsOnly (cs : List Char) : Bool := !cs.isEmpty && cs.all Char.isDigit

/-- The parts of a run of digits with an optional fraction and an optional exponent, where a digit
stands before or after the point. -/
def decimalParts? (cs : List Char) : Option DecimalParts :=
  let whole := cs.takeWhile Char.isDigit
  let rest := cs.dropWhile Char.isDigit
  let (fraction, rest, isPointed) := match rest with
    | '.' :: r => (r.takeWhile Char.isDigit, r.dropWhile Char.isDigit, true)
    | r => ([], r, false)
  if whole.isEmpty && fraction.isEmpty then none
  else
    match rest with
    | [] => some ⟨whole, fraction, 0, !isPointed⟩
    | e :: r =>
      let (negative, digits) := match r with
        | '+' :: d => (false, d)
        | '-' :: d => (true, d)
        | d => (false, d)
      if (e = 'e' || e = 'E') && digitsOnly digits then
        let exponent : Int := value digits
        some ⟨whole, fraction, if negative then -exponent else exponent, false⟩
      else none

/-- Whether a text spells a real number, infinity or NaN. -/
def isRealNumeral (s : String) : Bool :=
  let cs := s.toList.map plain
  let cs := trimPlain cs
  let unsigned := match cs with
    | '+' :: r => r
    | '-' :: r => r
    | r => r
  let word := String.ofList (unsigned.map Char.toLower)
  word = "inf" || word = "infinity" || word = "nan" ||
    (underscoresSit false cs && (decimalParts? (unsigned.filter (· ≠ '_'))).isSome)

/-! ## Limits -/

/-- The most digits that are converted to an integer, leading zeros included. -/
def maxIntegerDigits : Nat := 4300

/-- What is said when a run of `n` digits is too long to convert. -/
def tooManyDigits (n : Nat) : String :=
  "Exceeds the limit (4300 digits) for integer string conversion: value has " ++ toString n ++
    " digits; use sys.set_int_max_str_digits() to increase the limit"

/-- What is said when an integer has too many digits to be written. -/
def tooManyDigitsToWrite : String :=
  "Exceeds the limit (4300 digits) for integer string conversion; use " ++
    "sys.set_int_max_str_digits() to increase the limit"

/-! ## Numbers in columns -/

/-- A number as a column reads it from a text: an integer, if it has neither point nor exponent, or
a real number. -/
inductive ColumnNumber where
  | integer (n : Int)
  | real (negative : Bool) (digits : Nat) (exponent : Int)
  deriving DecidableEq, Repr

/-- The number that a text spells in a column: a decimal with an optional sign and blanks around
it. -/
def columnNumber? (s : String) : Option ColumnNumber :=
  let (negative, unsigned) := match trimPlain s.toList with
    | '+' :: cs => (false, cs)
    | '-' :: cs => (true, cs)
    | cs => (false, cs)
  (decimalParts? unsigned).map fun parts =>
    if parts.isInteger then
      let n : Int := value parts.whole
      .integer (if negative then -n else n)
    else
      .real negative (value (parts.whole ++ parts.fraction))
        (parts.exponent - parts.fraction.length)

/-! ## Integers in loose spelling -/

/-- What reading a text as an integer gives. -/
inductive IntegerReading where
  | value (n : Int)
  | tooLong
  | unreadable
  deriving DecidableEq, Repr

/-- A text without white space at its ends; the ASCII separators 0x1c to 0x1f are no white space
here. -/
def trimSpace (cs : List Char) : List Char :=
  let isSpace (c : Char) : Bool := isBlank c && !(0x1c ≤ c.toNat && c.toNat ≤ 0x1f)
  ((cs.dropWhile isSpace).reverse.dropWhile isSpace).reverse

/-- What is left of a numeral behind zeros, among which underscores may stand: a number that begins
with another digit or a dash, or the last of these characters and what follows it from a point on.
The first argument is the character passed last. -/
def skipZeros (last : Char) : List Char → Option (List Char)
  | [] => some [last]
  | c :: rest =>
    if c = '0' || c = '_' then skipZeros c rest
    else if c.isDigit || c = '-' then some (c :: rest)
    else if c = '.' then some (last :: c :: rest)
    else none

/-- A numeral without the zeros it begins with. It has to begin with a digit or a dash. -/
def withoutLeadingZeros : List Char → Option (List Char)
  | [] => none
  | c :: rest =>
    if c = '0' then skipZeros c rest
    else if c.isDigit || c = '-' then some (c :: rest)
    else none

/-- A numeral without its fraction, if that consists of zeros. -/
def withoutZeroFraction (cs : List Char) : List Char :=
  match cs.dropWhile (· ≠ '.') with
  | _ :: zero :: zeros =>
    if (zero :: zeros).all (· == '0') then cs.takeWhile (· ≠ '.') else cs
  | _ => cs

/-- Whether two underscores stand next to each other. -/
def doublesUnderscore : List Char → Bool
  | '_' :: '_' :: _ => true
  | _ :: rest => doublesUnderscore rest
  | [] => false

/-- A numeral without the underscores between its digits. They stay where one of them is the first
or the last character, or next to another one. -/
def withoutUnderscores (cs : List Char) : List Char :=
  if cs.head? = some '_' || cs.getLast? = some '_' || doublesUnderscore cs then cs
  else cs.filter (· ≠ '_')

/-- How many bytes a numeral has at most that is read as a machine word. -/
def maxWordBytes : Nat := 18

/-- The digits of a long numeral, in which underscores may stand anywhere behind the first digit. -/
def longDigits (cs : List Char) : List Char :=
  if cs.head? = some '_' then cs else cs.filter (· ≠ '_')

/-- The integer that digits spell, behind a dash if it is not positive. -/
def plainInteger (cs : List Char) : IntegerReading :=
  let size := (String.ofList cs).utf8ByteSize
  let (negative, spelled) := match cs with
    | '-' :: rest => (true, rest)
    | _ => (false, cs)
  let digits := if size ≤ maxWordBytes then spelled else longDigits spelled
  if maxIntegerDigits < size then .tooLong
  else if !digitsOnly digits then .unreadable
  else .value (if negative then -(value digits : Int) else value digits)

/-- The integer a text spells: blanks around it, a plus sign, leading zeros, underscores between
digits and a fraction of zeros do not count, and what is left has a bounded length. A plus sign in
front of a dash spells nothing. -/
def looseInteger (s : String) : IntegerReading :=
  let unsigned := match trimSpace s.toList with
    | '+' :: '-' :: _ => []
    | '+' :: rest => rest
    | cs => cs
  match withoutLeadingZeros unsigned with
  | none => .unreadable
  | some cs => plainInteger (withoutUnderscores (withoutZeroFraction cs))

end AvroRegistry.Text
