import AvroRegistry.Proofs.Registry.Changes

/-!
# Enrolling a schema

Registering a schema makes two changes: the schema is stored, and a version that points at it is
appended to the scope. It comes to this only if no live version of the scope holds the schema's
text, and then none points at the id that the schema gets, whether it is stored anew or was there
before. So the second change is never refused, and the two together are one change.
-/

namespace AvroRegistry.Registry

open Compatibility (Mode)

section

variable {default : Mode} {r : Registry} {scope : Scope}

/-- A schema with a known fingerprint is live in a scope if a live version points at it. -/
theorem live?_of_known {fingerprint : String} {e : StoredSchema}
    (known : r.schemas.withFingerprint? (.str fingerprint) = some e) :
    r.live? scope fingerprint =
      (r.versions.holding? scope (.int e.id)).map fun version => ⟨scope, version.number, e⟩ := by
  unfold live?
  rw [known]
  show ((r.versions.holding? scope (.int e.id)).bind fun version =>
    some (⟨scope, version.number, e⟩ : SchemaInfo)) = _
  rw [Option.map_eq_bind]
  rfl

/-- A live version of a scope that points at a stored schema is the one that is live under the
fingerprint of the schema. -/
theorem Sound.live?_of_points (sound : r.Sound default) {fingerprint : String} {e : StoredSchema}
    (stored : e ∈ r.schemas.entries) (address : e.fingerprint = .str fingerprint)
    {version : Version} (live : version ∈ r.versions.history scope)
    (points : version.schemaId = .int e.id) :
    r.live? scope fingerprint = some ⟨scope, version.number, e⟩ := by
  rw [live?_of_known (sound.schemas.withFingerprint?_mem stored address),
    sound.versions.holding?_mem live points]
  rfl

/-- A schema with a known fingerprint that is not live in a scope is held by no live version. -/
theorem holding?_of_live? {fingerprint : String} {e : StoredSchema}
    (known : r.schemas.withFingerprint? (.str fingerprint) = some e)
    (unheld : r.live? scope fingerprint = none) :
    r.versions.holding? scope (.int e.id) = none := by
  rw [live?_of_known known] at unheld
  exact Option.map_eq_none_iff.1 unheld

/-- No version points at the next id: each points at a schema that is there, and those have ids that
were handed out before. -/
theorem Sound.holding?_next (sound : r.Sound default) (scope : Scope) :
    r.versions.holding? scope (.int (r.schemas.lastId + 1)) = none := by
  refine List.find?_eq_none.2 fun version mem held => ?_
  obtain ⟨e, stored, points⟩ := sound.versions.points version (Versions.mem_ofScope.1 mem).1
  have below := sound.schemas.le_last e stored
  rw [points, Versions.equal_int, Bool.and_eq_true, beq_iff_eq] at held
  omega

/-- Once a schema is stored whose text no live version of the scope holds, its id is that of a
stored schema, and no live version of the scope points at it. -/
theorem Sound.put_unheld (sound : r.Sound default) {canonical raw : String} {id : Int}
    {r' : Registry} (unheld : r.live? scope (Schema.fingerprint canonical) = none)
    (put : (onSchemas (Schemas.put (.str canonical) (.str raw)
      (.str (Schema.fingerprint canonical)))).outcome r = (.ok id, r')) :
    r'.Sound default ∧ ∃ e ∈ r'.schemas.entries, e.id = id ∧
      r'.versions.holding? scope (.int e.id) = none := by
  cases known : r.schemas.withFingerprint? (.str (Schema.fingerprint canonical)) with
  | some e =>
    rw [put_known raw known] at put
    cases put
    have stored := (sound.schemas.withFingerprint?_some known).1
    exact ⟨sound, e, stored, rfl, holding?_of_live? known unheld⟩
  | none =>
    rcases put_commits sound raw known with ⟨file, -, added, after⟩ | ⟨-, -, _, -, -, -, refused⟩
    · rw [added] at put
      cases put
      have stored : r.schemas.next canonical raw ∈
          (r.schemas.add (r.schemas.next canonical raw)).entries :=
        List.mem_append_right _ List.mem_cons_self
      exact ⟨after, _, stored, rfl, sound.holding?_next scope⟩
    · rw [refused] at put
      cases put

/-- What enrolling does about a failure to append: a live version that holds the schema already will
do, and anything else is passed on. -/
def unlessHeld : Failure → Step Registry Unit
  | .fault (.alreadyExists _) => pure ()
  | f => throw f

theorem enroll_eq (scope : Scope) (candidate : Schema.Canonical) :
    enroll scope candidate = (do
      let id ← onSchemas (Schemas.put (.str candidate.text) (.str candidate.raw)
        (.str candidate.fingerprint))
      tryCatch (discard (onVersions (Versions.append scope (.int id)))) unlessHeld
      return id) := rfl

/-- A step that makes a change makes it also where its failures are handled. -/
theorem Commits.unlessHeld {α : Type} {step : Step Registry α} {a : α} {after : Registry}
    {words : Prop} (commits : Commits default step r a after words) :
    Commits default (tryCatch (discard step) unlessHeld) r () after words := by
  unfold Commits at commits ⊢
  rw [Step.outcome_tryCatch, Step.outcome_discard]
  rcases commits with ⟨file, files, made, sound⟩ | ⟨file, long, r', file', sound, same, refused⟩
  · rw [made]
    exact .inl ⟨file, files, rfl, sound⟩
  · rw [refused]
    exact .inr ⟨file, long, r', file', sound, same, rfl⟩

/-- A schema that is stored already is enrolled by appending a version. -/
theorem enroll_known (sound : r.Sound default) {candidate : Schema.Canonical} {e : StoredSchema}
    (known : r.schemas.withFingerprint? (.str candidate.fingerprint) = some e)
    (unheld : r.live? scope candidate.fingerprint = none) :
    Commits default (enroll scope candidate) r e.id
      { r with versions := r.versions.add (r.versions.next scope e.id) }
      (isWord (r.versions.maxNumber scope + 1) = true) := by
  have put : (onSchemas (Schemas.put (.str candidate.text) (.str candidate.raw)
      (.str candidate.fingerprint))).outcome r = (.ok e.id, r) := put_known candidate.raw known
  have stored := (sound.schemas.withFingerprint?_some known).1
  have append := append_commits sound stored (holding?_of_live? known unheld)
  unfold Commits
  rw [enroll_eq, Step.bind_of_ok put]
  rcases append.unlessHeld with
    ⟨file, files, appended, after⟩ | ⟨file, long, r', file', after, same, refused⟩
  · refine .inl ⟨file, files, ?_, after⟩
    exact (Step.bind_of_ok appended _).trans (Step.outcome_pure _ _)
  · exact .inr ⟨file, long, r', file', after, same, Step.bind_of_error refused _⟩

/-- A schema that is new is stored and enrolled. -/
theorem enroll_new (sound : r.Sound default) (scope : Scope) {candidate : Schema.Canonical}
    (absent : r.schemas.withFingerprint? (.str candidate.fingerprint) = none) :
    Commits default (enroll scope candidate) r (r.schemas.lastId + 1)
      { r with schemas := r.schemas.add (r.schemas.next candidate.text candidate.raw),
               versions := r.versions.add (r.versions.next scope (r.schemas.lastId + 1)) }
      (isWord (r.schemas.lastId + 1) = true ∧ isWord (r.versions.maxNumber scope + 1) = true) := by
  unfold Commits
  rw [enroll_eq]
  rcases put_commits sound candidate.raw absent with
    ⟨file, files, put, between⟩ | ⟨file, long, r', file', between, same, refused⟩
  · have stored : r.schemas.next candidate.text candidate.raw ∈
        (r.schemas.add (r.schemas.next candidate.text candidate.raw)).entries :=
      List.mem_append_right _ List.mem_cons_self
    have append := append_commits between stored (sound.holding?_next scope)
    rcases append.unlessHeld with
      ⟨file', files', appended, after⟩ | ⟨file', long, r', file'', after, same, refused⟩
    · refine .inl ⟨file', files'.trans files, (Step.bind_of_ok put _).trans ?_, after⟩
      exact (Step.bind_of_ok appended _).trans (Step.outcome_pure _ _)
    · refine .inr ⟨files ▸ file', fun words => long words.2, r', file'', after, same,
        (Step.bind_of_ok put _).trans ?_⟩
      exact Step.bind_of_error refused _
  · exact .inr ⟨file, fun words => long words.1, r', file', between, same,
      Step.bind_of_error refused _⟩

end

end AvroRegistry.Registry
