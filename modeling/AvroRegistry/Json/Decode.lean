import AvroRegistry.Breakdown
import AvroRegistry.Text.Numeral

/-!
# Reading JSON text

`Json.decode` reads a text that is one JSON value with blanks around it. Besides the standard
values it knows `NaN`, `Infinity` and `-Infinity`; a number with a fraction or an exponent is a
binary64 number, any other an exact integer; a key that occurs twice keeps its first place and
takes its last value.

A fault names the first place where the text stops being JSON. The reader works on the characters
still to be read, and a fault holds how many were left, from which `Fault.message` computes line
and column. An integer of more than 4300 digits is a fault of its own kind.
-/

namespace AvroRegistry.Json

/-! ## Faults -/

/-- What is wrong at a place of a text. -/
inductive Reason where
  | byteOrderMark
  | value
  | propertyName
  | colon
  | comma
  | extraData
  | unterminatedText
  | controlCharacter
  | badEscape
  | badUnicodeEscape
  deriving DecidableEq, Repr

/-- Why a text could not be read. -/
inductive ReadFault where
  /-- The text stops being JSON where this many characters are left. -/
  | malformed (reason : Reason) (left : Nat)
  /-- An integer with this many digits, more than are converted. -/
  | hugeInteger (digits : Nat)
  /-- The bound on the reader's steps was too small. -/
  | exhausted
  deriving DecidableEq, Repr

/-- The words for a reason. -/
def Reason.message : Reason → String
  | .byteOrderMark => "Unexpected UTF-8 BOM (decode using utf-8-sig)"
  | .value => "Expecting value"
  | .propertyName => "Expecting property name enclosed in double quotes"
  | .colon => "Expecting ':' delimiter"
  | .comma => "Expecting ',' delimiter"
  | .extraData => "Extra data"
  | .unterminatedText => "Unterminated string starting at"
  | .controlCharacter => "Invalid control character at"
  | .badEscape => "Invalid \\escape"
  | .badUnicodeEscape => "Invalid \\uXXXX escape"

/-- A place in a text: the line, counted from one, the column in it, and the offset. -/
def place (text : List Char) (offset : Nat) : String :=
  let before := text.take offset
  let line := before.count '\n' + 1
  let column := (before.reverse.takeWhile (· ≠ '\n')).length + 1
  "line " ++ toString line ++ " column " ++ toString column ++ " (char " ++ toString offset ++ ")"

/-- The breakdown that a fault of reading a text is. -/
def ReadFault.breakdown (text : List Char) : ReadFault → Breakdown
  | .malformed reason left => .notJson (reason.message ++ ": " ++ place text (text.length - left))
  | .hugeInteger digits => .badValue (Text.tooManyDigits digits)
  | .exhausted => .exhausted

/-! ## Tokens -/

/-- The blanks between tokens. -/
def isGap (c : Char) : Bool := c = ' ' || c = '\t' || c = '\n' || c = '\r'

/-- What is left after the blanks in front. -/
def skipGaps (cs : List Char) : List Char := cs.dropWhile isGap

/-- What follows a word, if the text begins with it. -/
def after? (word cs : List Char) : Option (List Char) :=
  match word, cs with
  | [], cs => some cs
  | w :: word, c :: cs => if w = c then after? word cs else none
  | _ :: _, [] => none

/-- The value of a hexadecimal digit. -/
def hexValue? (c : Char) : Option Nat :=
  if c.isDigit then some (c.toNat - 48)
  else if 'a' ≤ c ∧ c ≤ 'f' then some (c.toNat - 87)
  else if 'A' ≤ c ∧ c ≤ 'F' then some (c.toNat - 55)
  else none

/-- The value of four hexadecimal digits. -/
def hexValue4? (a b c d : Char) : Option Nat :=
  match hexValue? a, hexValue? b, hexValue? c, hexValue? d with
  | some a, some b, some c, some d => some (a * 4096 + b * 256 + c * 16 + d)
  | _, _, _, _ => none

/-- The character that a letter stands for after a backslash. -/
def simpleEscape? (c : Char) : Option Char :=
  if c = '"' ∨ c = '\\' ∨ c = '/' then some c
  else if c = 'b' then some '\x08'
  else if c = 'f' then some '\x0c'
  else if c = 'n' then some '\n'
  else if c = 'r' then some '\r'
  else if c = 't' then some '\t'
  else none

/-- Whether a UTF-16 unit opens a surrogate pair. -/
def isHighSurrogate (n : Nat) : Bool := 0xd800 ≤ n && n < 0xdc00

/-- Whether a UTF-16 unit closes a surrogate pair. -/
def isLowSurrogate (n : Nat) : Bool := 0xdc00 ≤ n && n < 0xe000

/-- The character of a UTF-16 unit on its own; half a pair becomes the replacement character. -/
def unitChar (n : Nat) : Char :=
  if isHighSurrogate n || isLowSurrogate n then '\ufffd' else Char.ofNat n

/-- The character of a surrogate pair. -/
def pairChar (high low : Nat) : Char :=
  Char.ofNat (0x10000 + (high - 0xd800) * 0x400 + (low - 0xdc00))

/-- What a quoted text is made of: characters, and the UTF-16 units of its escapes. -/
inductive Piece where
  | char (c : Char)
  | unit (n : Nat)
  deriving DecidableEq, Repr

/-- The characters of pieces: two units in a row that are a surrogate pair are one character. -/
def joinPieces : List Piece → List Char
  | [] => []
  | .char c :: rest => c :: joinPieces rest
  | .unit high :: .unit low :: rest =>
    if isHighSurrogate high && isLowSurrogate low then pairChar high low :: joinPieces rest
    else unitChar high :: joinPieces (.unit low :: rest)
  | .unit n :: rest => unitChar n :: joinPieces rest

/-- Adds a piece in front of what was read. -/
def consPiece (piece : Piece) :
    Except ReadFault (List Piece × List Char) → Except ReadFault (List Piece × List Char)
  | .ok (pieces, rest) => .ok (piece :: pieces, rest)
  | .error e => .error e

/-- The pieces of a quoted text after its opening quote, and what follows the closing one.
`opening` is how many characters were left at the opening quote. A Unicode escape needs its four
digits and at least one character after them. -/
def readPieces (opening : Nat) : List Char → Except ReadFault (List Piece × List Char)
  | [] => .error (.malformed .unterminatedText opening)
  | '"' :: rest => .ok ([], rest)
  | ['\\'] => .error (.malformed .unterminatedText opening)
  | '\\' :: 'u' :: a :: b :: c :: d :: rest =>
    match if rest.isEmpty then none else hexValue4? a b c d with
    | none => .error (.malformed .badUnicodeEscape (rest.length + 5))
    | some n => consPiece (.unit n) (readPieces opening rest)
  | '\\' :: c :: rest =>
    if c = 'u' then .error (.malformed .badUnicodeEscape (rest.length + 1))
    else match simpleEscape? c with
      | some e => consPiece (.char e) (readPieces opening rest)
      | none => .error (.malformed .badEscape (rest.length + 2))
  | c :: rest =>
    if c.toNat < 0x20 then .error (.malformed .controlCharacter (rest.length + 1))
    else consPiece (.char c) (readPieces opening rest)

/-- The characters of a quoted text after its opening quote, and what follows the closing one. -/
def readText (opening : Nat) (cs : List Char) : Except ReadFault (List Char × List Char) :=
  match readPieces opening cs with
  | .ok (pieces, rest) => .ok (joinPieces pieces, rest)
  | .error e => .error e

/-! ## Numbers -/

/-- The digits of the whole part in front of a text: a zero alone, or a run that does not begin
with one. -/
def wholeDigits (cs : List Char) : List Char :=
  match cs with
  | '0' :: _ => ['0']
  | _ => cs.takeWhile Char.isDigit

/-- The digits of a fraction, if the text goes on with a point and a digit, and the rest. -/
def readFraction (cs : List Char) : Option (List Char) × List Char :=
  match cs with
  | '.' :: rest =>
    let digits := rest.takeWhile Char.isDigit
    if digits.isEmpty then (none, cs) else (some digits, rest.dropWhile Char.isDigit)
  | _ => (none, cs)

/-- The exponent, if the text goes on with one, and the rest. -/
def readExponent (cs : List Char) : Option Int × List Char :=
  match cs with
  | e :: rest =>
    if e = 'e' ∨ e = 'E' then
      let (negative, unsigned) := match rest with
        | '-' :: r => (true, r)
        | '+' :: r => (false, r)
        | r => (false, r)
      let digits := unsigned.takeWhile Char.isDigit
      if digits.isEmpty then (none, cs)
      else
        let n : Int := Text.value digits
        (some (if negative then -n else n), unsigned.dropWhile Char.isDigit)
    else (none, cs)
  | [] => (none, cs)

/-- The number whose sign has been read and whose digits are in front, and the rest; nothing if
there is no digit in front. -/
def readUnsigned? (negative : Bool) (cs : List Char) :
    Option (Except ReadFault (Json × List Char)) :=
  let whole := wholeDigits cs
  if whole.isEmpty then none
  else
    let rest := cs.drop whole.length
    let (fraction, rest) := readFraction rest
    let (exponent, rest) := readExponent rest
    match fraction, exponent with
    | none, none =>
      if Text.maxIntegerDigits < whole.length then some (.error (.hugeInteger whole.length))
      else
        let n : Int := Text.value whole
        some (.ok (int (if negative then -n else n), rest))
    | fraction, exponent =>
      let fraction := fraction.getD []
      let scale := exponent.getD 0 - (fraction.length : Int)
      some (.ok (float (Binary64.ofDecimal negative (Text.value (whole ++ fraction)) scale), rest))

/-- The number in front of a text, and the rest. -/
def readNumber? (cs : List Char) : Option (Except ReadFault (Json × List Char)) :=
  match cs with
  | '-' :: rest => readUnsigned? true rest
  | _ => readUnsigned? false cs

/-- The words that are values. -/
def words : List (List Char × Json) :=
  [(['n', 'u', 'l', 'l'], null), (['t', 'r', 'u', 'e'], bool true),
    (['f', 'a', 'l', 's', 'e'], bool false), (['N', 'a', 'N'], float .nan),
    (['I', 'n', 'f', 'i', 'n', 'i', 't', 'y'], float (.infinite false)),
    (['-', 'I', 'n', 'f', 'i', 'n', 'i', 't', 'y'], float (.infinite true))]

/-- The word in front of a text, and the rest. -/
def readWord? (cs : List Char) : List (List Char × Json) → Option (Json × List Char)
  | [] => none
  | (word, v) :: more =>
    match after? word cs with
    | some rest => some (v, rest)
    | none => readWord? cs more

/-- The value without parts in front of a text. -/
def readScalar (cs : List Char) : Except ReadFault (Json × List Char) :=
  match readWord? cs words with
  | some found => .ok found
  | none =>
    match readNumber? cs with
    | some found => found
    | none => .error (.malformed .value cs.length)

/-! ## Values -/

mutual

/-- The value in front of a text, and the rest; `fuel` bounds the nesting of calls. -/
def readValue (fuel : Nat) (cs : List Char) : Except ReadFault (Json × List Char) :=
  match fuel with
  | 0 => .error .exhausted
  | fuel + 1 =>
    match cs with
    | '"' :: rest =>
      match readText cs.length rest with
      | .ok (s, rest) => .ok (str (String.ofList s), rest)
      | .error e => .error e
    | '[' :: rest =>
      match skipGaps rest with
      | ']' :: rest => .ok (arr [], rest)
      | rest =>
        match readItems fuel rest with
        | .ok (items, rest) => .ok (arr items, rest)
        | .error e => .error e
    | '{' :: rest =>
      match skipGaps rest with
      | '}' :: rest => .ok (obj [], rest)
      | rest =>
        match readMembers fuel [] rest with
        | .ok (members, rest) => .ok (obj members, rest)
        | .error e => .error e
    | _ => readScalar cs

/-- The values of an array from the place where one should start, and what follows the closing
bracket. -/
def readItems (fuel : Nat) (cs : List Char) : Except ReadFault (List Json × List Char) :=
  match fuel with
  | 0 => .error .exhausted
  | fuel + 1 =>
    match readValue fuel cs with
    | .error e => .error e
    | .ok (v, rest) =>
      match skipGaps rest with
      | ']' :: rest => .ok ([v], rest)
      | ',' :: rest =>
        match readItems fuel (skipGaps rest) with
        | .ok (items, rest) => .ok (v :: items, rest)
        | .error e => .error e
      | rest => .error (.malformed .comma rest.length)

/-- The members of an object from the place where a key should start, added to those already read,
and what follows the closing brace. -/
def readMembers (fuel : Nat) (members : List (String × Json)) (cs : List Char) :
    Except ReadFault (List (String × Json) × List Char) :=
  match fuel with
  | 0 => .error .exhausted
  | fuel + 1 =>
    match cs with
    | '"' :: rest =>
      match readText cs.length rest with
      | .error e => .error e
      | .ok (key, rest) =>
        match skipGaps rest with
        | ':' :: rest =>
          match readValue fuel (skipGaps rest) with
          | .error e => .error e
          | .ok (v, rest) =>
            let members := insert (String.ofList key) v members
            match skipGaps rest with
            | '}' :: rest => .ok (members, rest)
            | ',' :: rest => readMembers fuel members (skipGaps rest)
            | rest => .error (.malformed .comma rest.length)
        | rest => .error (.malformed .colon rest.length)
    | _ => .error (.malformed .propertyName cs.length)

end

/-- Reads a whole text. Two nested calls at most are made between two characters, which bounds the
nesting. -/
def read (cs : List Char) : Except ReadFault Json :=
  match cs with
  | '\ufeff' :: _ => .error (.malformed .byteOrderMark cs.length)
  | _ =>
    match readValue (2 * cs.length + 1) (skipGaps cs) with
    | .error e => .error e
    | .ok (v, rest) =>
      match skipGaps rest with
      | [] => .ok v
      | rest => .error (.malformed .extraData rest.length)

/-- The value that a text denotes. -/
def decode (text : String) : Except Breakdown Json :=
  match read text.toList with
  | .ok v => .ok v
  | .error fault => .error (fault.breakdown text.toList)

end AvroRegistry.Json
