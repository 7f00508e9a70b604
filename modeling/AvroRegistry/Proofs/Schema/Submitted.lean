import AvroRegistry.Proofs.Json.Decoded
import AvroRegistry.Schema.Canonical

/-!
# Submitted schemas

What counts of a submitted schema was read from a text, its own or the one that it is written as, so
it is plain (`submitted_plain`). A value whose text can be read back counts as it is
(`submitted_value`).

So a schema may be handed in again as the text that was kept of it (`canonicalize_raw`), and a text
as the value that it denotes (`canonicalize_decoded`): what comes of it is the same.
-/

namespace AvroRegistry

/-! ## Blank texts -/

namespace Json

theorem isDigit_of_isBlank {c : Char} (blank : Text.isBlank c = true) : c.isDigit = false := by
  have zero : '0'.val.toNat = 48 := rfl
  have nine : '9'.val.toNat = 57 := rfl
  refine Bool.eq_false_iff.2 fun digit => ?_
  unfold Char.isDigit at digit
  unfold Text.isBlank at blank
  simp only [Bool.and_eq_true, decide_eq_true_eq, ge_iff_le, UInt32.le_iff_toNat_le] at digit
  simp only [Char.toNat, Bool.or_eq_true, Bool.and_eq_true, decide_eq_true_eq, beq_iff_eq] at blank
  omega

/-- No value begins with a blank. -/
theorem readScalar_blank {c : Char} (blank : Text.isBlank c = true) (rest : List Char) :
    readScalar (c :: rest) = .error (.malformed .value (rest.length + 1)) := by
  have other : ∀ w, Text.isBlank w = false → ∀ word, after? (w :: word) (c :: rest) = none := by
    intro w solid word
    refine if_neg ?_
    rintro rfl
    cases solid.symm.trans blank
  have noWord : readWord? (c :: rest) words = none := by
    simp only [readWord?, words, other 'n' (by decide), other 't' (by decide),
      other 'f' (by decide), other 'N' (by decide), other 'I' (by decide), other '-' (by decide)]
  have noDigits : wholeDigits (c :: rest) = [] := by
    unfold wholeDigits
    split
    · next zero =>
      cases zero
      cases blank
    · rw [List.takeWhile_cons, isDigit_of_isBlank blank]
      rfl
  have noNumber : readNumber? (c :: rest) = none := by
    unfold readNumber?
    split
    · next minus =>
      cases minus
      cases blank
    · unfold readUnsigned?
      rw [noDigits]
      rfl
  unfold readScalar
  rw [noWord, noNumber]
  rfl

/-- A text that denotes a value is not blank. -/
theorem decode_not_blank {text : String} {v : Json} (ok : decode text = .ok v) :
    Text.isBlankText text = false := by
  refine Bool.eq_false_iff.2 fun blank => ?_
  obtain ⟨left, value, -⟩ := read_eq_ok (decode_eq_ok.1 ok)
  have blanks : ∀ c ∈ skipGaps text.toList, Text.isBlank c = true := fun c mem =>
    List.all_eq_true.1 blank c ((List.dropWhile_sublist _).subset mem)
  cases gone : skipGaps text.toList with
  | nil =>
    rw [gone] at value
    cases value
  | cons c rest =>
    have here := blanks c (gone ▸ List.mem_cons_self)
    have solid : ∀ d ∈ ['"', '[', '\x7b'], Text.isBlank d = false := forall_mem_of_all (by decide)
    have scalar : c ∉ ['"', '[', '\x7b'] := fun mem => by cases (solid c mem).symm.trans here
    rw [gone, readValue_scalar _ scalar, readScalar_blank here] at value
    cases value

end Json

namespace Schema

/-! ## What counts -/

/-- What counts of a submitted schema is read from the text that is kept of it. -/
theorem decode_raw {schema v : Json} {raw : String} (given : submitted schema = .ok (raw, v)) :
    Json.decode raw = .ok v := by
  have again : ∀ w : Json, rewritten w = .ok (raw, v) → Json.decode raw = .ok v := by
    intro w ok
    unfold rewritten at ok
    dsimp only at ok
    split at ok
    · next read =>
      cases ok
      exact read
    · cases ok
  unfold submitted at given
  split at given
  · split at given
    · cases given
    split at given
    · next read =>
      cases given
      exact read
    · cases given
    · cases given
  · cases given
  · cases given
  · exact again _ given
  · exact again _ given
  · cases given

/-- What counts of a submitted schema is plain. -/
theorem submitted_plain {schema v : Json} {raw : String}
    (given : submitted schema = .ok (raw, v)) : v.Everywhere Json.Plain :=
  Json.decode_plain (decode_raw given)

theorem rewritten_readable {v : Json} (readable : v.Everywhere Json.Readable) :
    rewritten v = .ok (v.encode Json.spaced, v) := by
  have read := Json.decode_encode Json.spaced_standard readable
  rw [Json.arranged_of_unsorted _ rfl] at read
  unfold rewritten
  dsimp only
  rw [read]

/-- A readable value that is an array or an object with something in it counts as it is. -/
theorem submitted_value {v : Json} (readable : v.Everywhere Json.Readable)
    (composite : v.isKey = false) (some : v.truthy = true) :
    submitted v = .ok (v.encode Json.spaced, v) := by
  have written := rewritten_readable readable
  cases v with
  | arr items =>
    cases items with
    | nil => cases some
    | cons item rest => exact written
  | obj members =>
    cases members with
    | nil => cases some
    | cons m rest => exact written
  | _ => cases composite

/-! ## Handing in what was kept -/

section

variable {schema v : Json} {raw text : String} {c : Canonical}

theorem submitted_str (read : Json.decode text = .ok v) :
    submitted (.str text) = .ok (text, v) := by
  unfold submitted
  dsimp only
  rw [Json.decode_not_blank read, if_neg Bool.false_ne_true, read]

/-- A schema that is brought into canonical form stands for a value. -/
theorem exists_submitted (ok : canonicalize schema = .ok c) :
    ∃ raw v, submitted schema = .ok (raw, v) := by
  cases given : submitted schema with
  | error refusal =>
    unfold canonicalize at ok
    rw [given] at ok
    cases ok
  | ok result => exact ⟨result.1, result.2, rfl⟩

/-- The text that is kept of a schema is the one that it was submitted as. -/
theorem raw_of_canonicalize (given : submitted schema = .ok (raw, v))
    (ok : canonicalize schema = .ok c) : c.raw = raw := by
  unfold canonicalize at ok
  rw [given] at ok
  dsimp only at ok
  split at ok
  · cases ok
  · split at ok
    · cases ok
    · cases ok
      rfl

/-- A schema may be handed in again as the text that was kept of it. -/
theorem canonicalize_raw (ok : canonicalize schema = .ok c) :
    canonicalize (.str c.raw) = .ok c := by
  obtain ⟨raw, v, given⟩ := exists_submitted ok
  rw [raw_of_canonicalize given ok, ← ok]
  unfold canonicalize
  rw [given, submitted_str (decode_raw given)]

/-- What becomes of a schema depends, but for the text that is kept, on the value that counts. -/
theorem canonicalize_congr {schema' : Json} {raw' : String}
    (given : submitted schema = .ok (raw, v)) (given' : submitted schema' = .ok (raw', v)) :
    (canonicalize schema).map (·.form) = (canonicalize schema').map (·.form) := by
  unfold canonicalize
  rw [given, given']
  dsimp only
  cases accept v with
  | error refusal => rfl
  | ok _ =>
    cases normalize v with
    | error refusal => rfl
    | ok form => rfl

/-- A text may be handed in as the value that it denotes, if that is an array or an object with
something in it. -/
theorem canonicalize_decoded (read : Json.decode text = .ok v) (composite : v.isKey = false)
    (some : v.truthy = true) :
    (canonicalize (.str text)).map (·.form) = (canonicalize v).map (·.form) := by
  have plain := Json.decode_plain read
  have readable := Json.readable_of_plain plain (Json.readsBack_of_plain plain)
  exact canonicalize_congr (submitted_str read) (submitted_value readable composite some)

end

end Schema

end AvroRegistry
