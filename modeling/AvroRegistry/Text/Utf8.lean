/-!
# Strict UTF-8

Reading bytes as UTF-8 text without any replacement: `decode` either gives the characters or says
where and why the bytes stop being UTF-8. Overlong forms, surrogates and code points beyond the
last one are refused at the byte where the sequence can no longer be completed, so the fault spans
exactly the bytes that could have begun a character.

`unifyNewlines` is what reading a file as text does after decoding.
-/

namespace AvroRegistry.Text

/-! ## Faults -/

/-- Why a byte sequence is not UTF-8. -/
inductive Utf8Reason where
  | invalidStart
  | invalidContinuation
  | unexpectedEnd
  deriving DecidableEq, Repr

/-- A fault: the position of its first byte, that byte, how many bytes it spans, and the reason. -/
structure Utf8Fault where
  start : Nat
  byte : Nat
  span : Nat
  reason : Utf8Reason
  deriving DecidableEq, Repr

/-- The words for a reason. -/
def Utf8Reason.message : Utf8Reason → String
  | .invalidStart => "invalid start byte"
  | .invalidContinuation => "invalid continuation byte"
  | .unexpectedEnd => "unexpected end of data"

/-- A byte in two lower-case hexadecimal digits. -/
def hexByte (byte : Nat) : String :=
  String.ofList [Nat.digitChar (byte / 16 % 16), Nat.digitChar (byte % 16)]

/-- The message of a fault: a single byte is shown, several are given by their positions. -/
def Utf8Fault.message (f : Utf8Fault) : String :=
  let place :=
    if f.span = 1 then "byte 0x" ++ hexByte f.byte ++ " in position " ++ toString f.start
    else "bytes in position " ++ toString f.start ++ "-" ++ toString (f.start + f.span - 1)
  "'utf-8' codec can't decode " ++ place ++ ": " ++ f.reason.message

/-! ## Decoding -/

/-- Whether a byte can continue a character. -/
def isContinuation (b : Nat) : Bool := 0x80 ≤ b && b < 0xc0

/-- Whether the second byte can follow the first one of a character of three or four bytes. -/
def canFollow (first second : Nat) : Bool :=
  isContinuation second &&
    !(first == 0xe0 && second < 0xa0) && !(first == 0xed && 0xa0 ≤ second) &&
    !(first == 0xf0 && second < 0x90) && !(first == 0xf4 && 0x90 ≤ second)

/-- One character from the front of a non-empty byte sequence: the character and how many bytes it
took, or the span and reason of the fault. -/
def decodeOne (b : Nat) (rest : List Nat) : Except (Nat × Utf8Reason) (Char × Nat) :=
  if b < 0x80 then .ok (Char.ofNat b, 1)
  else if b < 0xc2 then .error (1, .invalidStart)
  else if b < 0xe0 then
    match rest with
    | [] => .error (1, .unexpectedEnd)
    | b2 :: _ =>
      if isContinuation b2 then .ok (Char.ofNat ((b - 0xc0) * 64 + (b2 - 0x80)), 2)
      else .error (1, .invalidContinuation)
  else if b < 0xf0 then
    match rest with
    | [] => .error (1, .unexpectedEnd)
    | b2 :: more =>
      if !canFollow b b2 then .error (1, .invalidContinuation)
      else match more with
        | [] => .error (2, .unexpectedEnd)
        | b3 :: _ =>
          if isContinuation b3 then
            .ok (Char.ofNat ((b - 0xe0) * 4096 + (b2 - 0x80) * 64 + (b3 - 0x80)), 3)
          else .error (2, .invalidContinuation)
  else if b < 0xf5 then
    match rest with
    | [] => .error (1, .unexpectedEnd)
    | b2 :: more =>
      if !canFollow b b2 then .error (1, .invalidContinuation)
      else match more with
        | [] => .error (2, .unexpectedEnd)
        | b3 :: more =>
          if !isContinuation b3 then .error (2, .invalidContinuation)
          else match more with
            | [] => .error (3, .unexpectedEnd)
            | b4 :: _ =>
              if isContinuation b4 then
                .ok (Char.ofNat ((b - 0xf0) * 262144 + (b2 - 0x80) * 4096 + (b3 - 0x80) * 64 +
                  (b4 - 0x80)), 4)
              else .error (3, .invalidContinuation)
  else .error (1, .invalidStart)

/-- Decodes from a position, skipping the bytes that belong to the character just read. -/
def decodeFrom (position skip : Nat) : List Nat → Except Utf8Fault (List Char)
  | [] => .ok []
  | b :: rest =>
    match skip with
    | skip + 1 => decodeFrom (position + 1) skip rest
    | 0 =>
      match decodeOne b rest with
      | .error (span, reason) => .error ⟨position, b, span, reason⟩
      | .ok (c, size) => do
        let cs ← decodeFrom (position + 1) (size - 1) rest
        return c :: cs

/-- The text that bytes encode. -/
def decodeUtf8 (bytes : List Nat) : Except Utf8Fault (List Char) := decodeFrom 0 0 bytes

/-! ## Line ends -/

/-- A carriage return, alone or before a line feed, becomes a line feed. -/
def unifyNewlines : List Char → List Char
  | '\r' :: '\n' :: rest => '\n' :: unifyNewlines rest
  | c :: rest => (if c = '\r' then '\n' else c) :: unifyNewlines rest
  | [] => []

end AvroRegistry.Text
