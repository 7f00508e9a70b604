import AvroRegistry.Proofs.Compatibility.References
import AvroRegistry.Proofs.Registry.Addressing
import AvroRegistry.Proofs.Schema.Kept

/-!
# Stored bodies, parsed

What a registry stores of a schema is the text of its canonical form. The real numbers in it are
read back as they were written (`Canonical.numbersReadBack`), so that text parses, and gives the
value of the canonical form with its members in the order of the text (`decode_text`). Along a
history every stored body is the text of a submitted schema, so all of them parse
(`Tracks.parsed`), and what a version parses to stays the same (`formOf_later`).
-/

namespace AvroRegistry

open Compatibility (Mode)
open Json (Everywhere Plain)

namespace Schema

/-- The value of a canonical form is plain. -/
theorem Canonical.plain {schema : Json} {c : Canonical} (ok : canonicalize schema = .ok c) :
    c.value.Everywhere Plain := by
  obtain ⟨raw, v, given⟩ := exists_submitted ok
  obtain ⟨-, normalized⟩ := Compatibility.canonicalize_eq_ok given ok
  obtain ⟨after, normalized⟩ := Compatibility.normalize_eq normalized
  exact plain_toJson normalized (submitted_plain given)

/-- The real numbers in a canonical form are read back from their texts. -/
def Canonical.NumbersReadBack (c : Canonical) : Prop :=
  ∀ negative mantissa exponent,
    Json.float (.finite negative mantissa exponent) ∈ c.value.parts →
      (Binary64.finite negative mantissa exponent).ReadsBack

/-- They all are: what a schema was read as has its numbers in the form that is read back. -/
theorem Canonical.numbersReadBack {schema : Json} {c : Canonical}
    (ok : canonicalize schema = .ok c) : c.NumbersReadBack :=
  Json.readsBack_of_plain (Canonical.plain ok)

/-- The text of a canonical form gives back its value, with its members in order. -/
theorem decode_text {schema : Json} {c : Canonical} (ok : canonicalize schema = .ok c)
    (numbers : c.NumbersReadBack) :
    Json.decode c.text = .ok (Json.arranged Json.compact c.value) :=
  Json.decode_encode Json.compact_standard (Json.readable_of_plain (Canonical.plain ok) numbers)

end Schema

namespace Registry

theorem canonicalize_of_canonicalOf {schema : Json} {c : Schema.Canonical}
    (accepted : canonicalOf schema = .ok c) : Schema.canonicalize schema = .ok c := by
  cases made : Schema.canonicalize schema with
  | error refusal =>
    unfold canonicalOf at accepted
    rw [made] at accepted
    cases schema <;> cases accepted
  | ok d =>
    unfold canonicalOf at accepted
    rw [made] at accepted
    cases schema <;> cases accepted <;> rfl

/-- The real numbers in all canonical forms that were submitted along a history are read back. -/
def NumbersReadBack (history : List Deed) : Prop :=
  ∀ candidate, Submitted history candidate → candidate.NumbersReadBack

theorem Submitted.mono {history more : List Deed} {candidate : Schema.Canonical}
    (submitted : Submitted history candidate) (sub : history ⊆ more) :
    Submitted more candidate := by
  obtain ⟨subject, part, schema, answer, mem, accepted⟩ := submitted
  exact ⟨subject, part, schema, answer, sub mem, accepted⟩

theorem NumbersReadBack.mono {history more : List Deed} (numbers : NumbersReadBack more)
    (sub : history ⊆ more) : NumbersReadBack history :=
  fun candidate submitted => numbers candidate (submitted.mono sub)

theorem Submitted.canonical {history : List Deed} {candidate : Schema.Canonical}
    (submitted : Submitted history candidate) :
    ∃ schema, Schema.canonicalize schema = .ok candidate := by
  obtain ⟨subject, part, schema, answer, -, accepted⟩ := submitted
  exact ⟨schema, canonicalize_of_canonicalOf accepted⟩

/-- A stored body that is the text of a submitted schema parses to its value. -/
theorem formOf_submitted {history : List Deed} (numbers : NumbersReadBack history)
    {e : StoredSchema} {candidate : Schema.Canonical} (submitted : Submitted history candidate)
    (body : e.canonical = .str candidate.text) :
    Schemas.formOf e = .ok (Json.arranged Json.compact candidate.value) := by
  obtain ⟨schema, ok⟩ := submitted.canonical
  unfold Schemas.formOf
  rw [body]
  dsimp only
  rw [Schema.decode_text ok (numbers candidate submitted)]

section

variable {default : Mode} {start r r' : Registry} {history : List Deed}

/-- Every stored body parses to the value of a submitted schema. -/
theorem Tracks.parsed (tracks : Tracks history r) (numbers : NumbersReadBack history)
    {e : StoredSchema} (mem : e ∈ r.schemas.entries) :
    ∃ candidate, Submitted history candidate ∧
      Schemas.formOf e = .ok (Json.arranged Json.compact candidate.value) := by
  obtain ⟨earlier, candidate, stored⟩ := tracks.stored e mem
  exact ⟨candidate, stored.submitted, formOf_submitted numbers stored.submitted stored.canonical⟩

/-- A version of a schema that is stored parses to what the stored body does. -/
theorem Sound.formOf_stored (sound : r.Sound default) {e : StoredSchema}
    (mem : e ∈ r.schemas.entries) {version : Version} (points : version.schemaId = .int e.id) :
    r.formOf version = Schemas.formOf e := by
  unfold Registry.formOf Registry.schemaOf
  rw [points, sound.schemas.lookUp_id mem]

/-- What a version parses to is the same in every registry that stores no less. -/
theorem Sound.formOf_later (sound : r.Sound default) {other : Mode} (later : r'.Sound other)
    (kept : r.schemas.entries ⊆ r'.schemas.entries) {version : Version}
    (known : version ∈ r.versions.rows) : r'.formOf version = r.formOf version := by
  obtain ⟨e, mem, points, -⟩ := sound.schemaOf known
  rw [sound.formOf_stored mem points, later.formOf_stored (kept mem) points]

end

end Registry

end AvroRegistry
