import AvroRegistry.Proofs.Registry.Enrolling

/-!
# The ways of a registration

A registration ends in one of three ways. It fails before anything is changed; it gives the id of a
schema that a live version of the scope holds already; or the schema is admitted and enrolled. What
a registration changes is what enrolling changes.
-/

namespace AvroRegistry.Registry

/-- A schema is admitted to a scope: no live version holds its text, and it is compatible with the
live versions that the mode in effect asks about. -/
structure Admits (r : Registry) (scope : Scope) (candidate : Schema.Canonical) : Prop where
  unheld : r.live? scope candidate.fingerprint = none
  compatible : r.violations candidate
    (references (r.config.effective scope) (r.versions.history scope))
    (r.config.effective scope) = .ok []

section

variable {r : Registry} {scope : Scope} {candidate : Schema.Canonical} {subject : Json}
  {part : Argument Part} {schema : Json}

theorem settle_ok_outcome {α β : Type} {computed : Except Failure α} {a : α}
    (given : computed = .ok a) (f : α → Step Registry β) (r : Registry) :
    (settle computed >>= f).outcome r = (f a).outcome r := by
  rw [given]
  rfl

theorem settle_error_outcome {α β : Type} {computed : Except Failure α} {failure : Failure}
    (given : computed = .error failure) (f : α → Step Registry β) (r : Registry) :
    (settle computed >>= f).outcome r = (.error failure, r) := by
  rw [given]
  rfl

/-- A step that goes on with a computation gives a result only if the computation did. -/
theorem ok_of_settle_bind {α β : Type} {computed : Except Failure α} {f : α → Step Registry β}
    {r r' : Registry} {b : β} (ran : (settle computed >>= f).outcome r = (.ok b, r')) :
    ∃ a, computed = .ok a ∧ (f a).outcome r = (.ok b, r') := by
  cases computed with
  | error failure => cases ran
  | ok a => exact ⟨a, rfl, ran⟩

theorem ok_of_settle {α : Type} {computed : Except Failure α} {r r' : Registry} {a : α}
    (ran : (settle computed).outcome r = (.ok a, r')) : computed = .ok a := by
  cases computed with
  | error failure => cases ran
  | ok b =>
    cases ran
    rfl

/-- Registering a schema that a live version of the scope holds gives the id of the schema. -/
theorem register_live (placed : scopeOf subject part = .ok scope)
    (accepted : canonicalOf schema = .ok candidate) {info : SchemaInfo}
    (live : r.live? scope candidate.fingerprint = some info) :
    (register subject part schema).outcome r = (.ok info.schema.id, r) := by
  unfold register
  rw [settle_ok_outcome placed, settle_ok_outcome accepted, Step.bind_of_ok (Step.outcome_get r)]
  dsimp only
  rw [live]
  rfl

/-- What registering does with a schema whose text no live version of the scope holds: it is held
against the versions that the mode in effect asks about, and enrolled if there is no violation. -/
def enrollChecked (r : Registry) (scope : Scope) (candidate : Schema.Canonical) :
    Step Registry Int := do
  let mode := r.config.effective scope
  let found ← settle (r.violations candidate (references mode (r.versions.history scope)) mode)
  if !found.isEmpty then Step.refuse (.incompatible found mode (.str scope.render))
  enroll scope candidate

theorem register_unheld (placed : scopeOf subject part = .ok scope)
    (accepted : canonicalOf schema = .ok candidate)
    (unheld : r.live? scope candidate.fingerprint = none) :
    (register subject part schema).outcome r = (enrollChecked r scope candidate).outcome r := by
  unfold register
  rw [settle_ok_outcome placed, settle_ok_outcome accepted, Step.bind_of_ok (Step.outcome_get r)]
  dsimp only
  rw [unheld]
  rfl

/-- Registering a schema that is admitted is enrolling it. -/
theorem register_admitted (placed : scopeOf subject part = .ok scope)
    (accepted : canonicalOf schema = .ok candidate) (admits : r.Admits scope candidate) :
    (register subject part schema).outcome r = (enroll scope candidate).outcome r := by
  rw [register_unheld placed accepted admits.unheld]
  exact settle_ok_outcome admits.compatible _ r

/-- The three ways of a registration. -/
theorem register_cases (r : Registry) (subject : Json) (part : Argument Part) (schema : Json) :
    (∃ failure, (register subject part schema).outcome r = (.error failure, r)) ∨
      ∃ scope candidate, scopeOf subject part = .ok scope ∧ canonicalOf schema = .ok candidate ∧
        ((∃ info, r.live? scope candidate.fingerprint = some info ∧
            (register subject part schema).outcome r = (.ok info.schema.id, r)) ∨
          (r.Admits scope candidate ∧
            (register subject part schema).outcome r = (enroll scope candidate).outcome r)) := by
  cases placed : scopeOf subject part with
  | error failure => exact .inl ⟨failure, settle_error_outcome placed _ r⟩
  | ok scope =>
    cases accepted : canonicalOf schema with
    | error failure =>
      refine .inl ⟨failure, ?_⟩
      unfold register
      rw [settle_ok_outcome placed]
      exact settle_error_outcome accepted _ r
    | ok candidate =>
      cases unheld : r.live? scope candidate.fingerprint with
      | some info =>
        exact .inr ⟨scope, candidate, rfl, rfl,
          .inl ⟨info, unheld, register_live placed accepted unheld⟩⟩
      | none =>
        cases checked : r.violations candidate
            (references (r.config.effective scope) (r.versions.history scope))
            (r.config.effective scope) with
        | error failure =>
          refine .inl ⟨failure, ?_⟩
          rw [register_unheld placed accepted unheld]
          exact settle_error_outcome checked _ r
        | ok found =>
          cases found with
          | nil =>
            have admits : r.Admits scope candidate := ⟨unheld, checked⟩
            exact .inr ⟨scope, candidate, rfl, rfl,
              .inr ⟨admits, register_admitted placed accepted admits⟩⟩
          | cons violation rest =>
            refine .inl ⟨.fault (.incompatible (violation :: rest) (r.config.effective scope)
              (.str scope.render)), ?_⟩
            rw [register_unheld placed accepted unheld]
            exact settle_ok_outcome checked _ r

end

end AvroRegistry.Registry
