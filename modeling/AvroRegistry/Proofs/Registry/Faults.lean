import AvroRegistry.Proofs.Registry.Changes

/-!
# Failures that are no internal faults

An internal fault says that a store is corrupt or that its file failed. Nothing that a registry
works out from its arguments ends in one. Nor does anything that it looks up, as long as it is
sound: a version that it knows points at a schema that it has.
-/

namespace AvroRegistry

open Compatibility (Mode)

/-- A computation ends in an internal fault. -/
def Internal {α : Type} (result : Except Failure α) : Prop :=
  ∃ message cause, result = .error (.fault (.internal message cause))

variable {α : Type}

theorem not_internal_ok (a : α) : ¬ Internal (.ok a : Except Failure α) := by
  rintro ⟨message, cause, same⟩
  cases same

theorem not_internal_breakdown (b : Breakdown) :
    ¬ Internal (.error (.breakdown b) : Except Failure α) := by
  rintro ⟨message, cause, same⟩
  cases same

/-- Only a fault that is internal ends a computation in an internal fault. -/
theorem not_internal_fault {f : Fault} (other : ∀ message cause, f ≠ .internal message cause) :
    ¬ Internal (.error (.fault f) : Except Failure α) := by
  rintro ⟨message, cause, same⟩
  cases same
  exact other message cause rfl

theorem Internal.of_error {β : Type} {f : Failure}
    (internal : Internal (.error f : Except Failure α)) :
    Internal (.error f : Except Failure β) := by
  obtain ⟨message, cause, same⟩ := internal
  cases same
  exact ⟨message, cause, rfl⟩

namespace Registry

/-! ## Arguments -/

theorem scopeOf_not_internal (subject : Json) (part : Argument Part) :
    ¬ Internal (scopeOf subject part) := by
  unfold scopeOf
  split
  · exact not_internal_fault nofun
  · split
    · exact not_internal_ok _
    · split
      · exact not_internal_ok _
      · exact not_internal_fault nofun

theorem positiveInt?_not_internal (v : Json) : ¬ Internal (positiveInt? v) := by
  unfold positiveInt?
  split
  · exact not_internal_ok _
  · dsimp only
    split
    · split
      · exact not_internal_breakdown _
      · exact not_internal_ok _
    · exact not_internal_ok _
  · exact not_internal_ok _

theorem selectorOf_not_internal (version : Json) : ¬ Internal (selectorOf version) := by
  unfold selectorOf
  split
  · exact not_internal_ok _
  · split
    · next failed =>
      intro internal
      exact positiveInt?_not_internal version (failed ▸ internal.of_error)
    · exact not_internal_ok _
    · exact not_internal_fault nofun

theorem idOf_not_internal (id : Json) : ¬ Internal (idOf id) := by
  unfold idOf
  split
  · next failed =>
    intro internal
    exact positiveInt?_not_internal id (failed ▸ internal.of_error)
  · exact not_internal_ok _
  · exact not_internal_fault nofun

theorem canonicalize_not_internal (schema : Json) :
    ¬ Internal (match Schema.canonicalize schema with
      | .ok c => .ok c
      | .error r => .error r.failure : Except Failure Schema.Canonical) := by
  cases Schema.canonicalize schema with
  | ok c => exact not_internal_ok _
  | error refusal =>
    cases refusal with
    | diagnosis d => exact not_internal_fault nofun
    | breakdown b => exact not_internal_breakdown b

theorem canonicalOf_not_internal (schema : Json) : ¬ Internal (canonicalOf schema) := by
  unfold canonicalOf
  cases schema with
  | str | arr | obj => exact canonicalize_not_internal _
  | null | bool | int | float => exact not_internal_fault nofun

theorem parseMode_not_internal (argument : Argument Mode) : ¬ Internal (parseMode argument) := by
  unfold parseMode
  split
  · exact not_internal_ok _
  · split
    · exact not_internal_ok _
    · exact not_internal_fault nofun

/-! ## Look-ups -/

theorem get_not_internal (v : Versions) (scope : Scope) (selector : Selector) :
    ¬ Internal (v.get scope selector) := by
  unfold Versions.get
  split
  · exact not_internal_ok _
  · exact not_internal_fault nofun

theorem liveNumbers_not_internal (v : Versions) (scope : Scope) :
    ¬ Internal (v.liveNumbers scope) := by
  unfold Versions.liveNumbers
  split
  · exact not_internal_fault nofun
  · exact not_internal_ok _

theorem schema_not_internal (s : Schemas) (id : Int) : ¬ Internal (s.get id) := by
  unfold Schemas.get
  split
  · exact not_internal_ok _
  · exact not_internal_fault nofun

theorem form_not_internal (e : StoredSchema) : ¬ Internal (Schemas.formOf e) := by
  unfold Schemas.formOf
  split
  · split
    · exact not_internal_ok _
    · exact not_internal_breakdown _
  · exact not_internal_breakdown _

/-! ## The schemas of versions -/

section

variable {default : Mode} {r : Registry}

/-- Every version of a sound registry, live or deleted, has its schema. -/
theorem Sound.schemaOf (sound : r.Sound default) {version : Version}
    (known : version ∈ r.versions.rows) :
    ∃ e ∈ r.schemas.entries, version.schemaId = .int e.id ∧ r.schemaOf version = .ok e := by
  obtain ⟨e, stored, points⟩ := sound.versions.points version known
  refine ⟨e, stored, points, ?_⟩
  unfold Registry.schemaOf
  rw [points, sound.schemas.lookUp_id stored]

theorem Sound.formsOf_not_internal (sound : r.Sound default) (versions : List Version)
    (known : ∀ version ∈ versions, version ∈ r.versions.rows) :
    ¬ Internal (r.formsOf versions) := by
  induction versions with
  | nil => exact not_internal_ok _
  | cons version rest ih =>
    obtain ⟨e, -, -, found⟩ := sound.schemaOf (known version List.mem_cons_self)
    have first : r.formOf version = Schemas.formOf e := by
      unfold Registry.formOf
      rw [found]
    have others := ih fun v mem => known v (List.mem_cons_of_mem _ mem)
    unfold Registry.formsOf
    rw [first]
    cases form : Schemas.formOf e with
    | error f =>
      intro internal
      exact form_not_internal e (form ▸ internal.of_error)
    | ok v =>
      dsimp only
      cases forms : r.formsOf rest with
      | error f =>
        intro internal
        exact others (forms ▸ internal.of_error)
      | ok vs => exact not_internal_ok _

theorem Sound.violations_not_internal (sound : r.Sound default) (candidate : Schema.Canonical)
    {against : List Version} (known : ∀ version ∈ against, version ∈ r.versions.rows)
    (mode : Mode) : ¬ Internal (r.violations candidate against mode) := by
  unfold Registry.violations
  cases forms : r.formsOf against with
  | error f =>
    intro internal
    exact sound.formsOf_not_internal against known (forms ▸ internal.of_error)
  | ok vs =>
    dsimp only
    split
    · exact not_internal_ok _
    · exact not_internal_breakdown _

end

/-- The versions that a mode asks for are live versions of the scope. -/
theorem mem_references {mode : Mode} {history : List Version} {version : Version}
    (mem : version ∈ references mode history) : version ∈ history := by
  unfold references at mem
  split at mem
  · exact mem
  · exact List.mem_of_mem_drop mem

theorem references_known (r : Registry) (mode : Mode) (scope : Scope) :
    ∀ version ∈ references mode (r.versions.history scope), version ∈ r.versions.rows :=
  fun _ mem => (Versions.mem_history.1 (mem_references mem)).1

theorem testedAgainst_not_internal (r : Registry) (scope : Scope) (selector : Selector)
    (mode : Mode) : ¬ Internal (r.testedAgainst scope selector mode) := by
  unfold testedAgainst
  cases selector with
  | latest =>
    dsimp only
    split
    · exact not_internal_fault nofun
    · exact not_internal_ok _
  | number n =>
    dsimp only
    cases got : r.versions.get scope (.number n) with
    | ok version => exact not_internal_ok _
    | error f =>
      intro internal
      exact get_not_internal r.versions scope (.number n) (got ▸ internal.of_error)

/-- What a schema is tested against are versions of the registry. -/
theorem testedAgainst_known {r : Registry} {scope : Scope} {selector : Selector} {mode : Mode}
    {against : List Version} (tested : r.testedAgainst scope selector mode = .ok against) :
    ∀ version ∈ against, version ∈ r.versions.rows := by
  unfold testedAgainst at tested
  cases selector with
  | latest =>
    dsimp only at tested
    split at tested
    · cases tested
    · cases tested
      exact references_known r mode scope
  | number n =>
    dsimp only at tested
    cases got : r.versions.get scope (.number n) with
    | error f =>
      rw [got] at tested
      cases tested
    | ok version =>
      rw [got] at tested
      cases tested
      intro v mem
      rw [List.mem_singleton.1 mem]
      exact Versions.mem_rows_of_get got

end Registry

end AvroRegistry
