import AvroRegistry.Proofs.Registry.Failing

/-!
# The effects of operations

All that an operation can do to a sound registry, in one place. It fails and changes nothing, or
only looks; a registration finds the schema in the scope, or appends a version of a schema that is
stored already, or stores the schema and appends its version; one that exhausts the numbers of a
scope stores the schema and fails. Deleting marks versions, and setting modes changes modes only.

What a history keeps is shown by going through these effects.
-/

namespace AvroRegistry

open Compatibility (Mode)
open Step (Looks)

/-- Whether an operation is a registration. -/
def Operation.registers : Operation → Bool
  | .register .. => true
  | _ => false

namespace Registry

/-- What an operation with an answer makes of a registry. -/
inductive Effect (r : Registry) : Operation → Except Failure Result → Registry → Prop where
  | refused {op : Operation} {failure : Failure} : Effect r op (.error failure) r
  | looked {op : Operation} {answer : Except Failure Result} (other : op.registers = false) :
      Effect r op answer r
  | held {subject schema : Json} {part : Argument Part} {scope : Scope}
      {candidate : Schema.Canonical} {info : SchemaInfo}
      (placed : scopeOf subject part = .ok scope) (accepted : canonicalOf schema = .ok candidate)
      (live : r.live? scope candidate.fingerprint = some info) :
      Effect r (.register subject part schema) (.ok (.id info.schema.id)) r
  | appended {subject schema : Json} {part : Argument Part} {scope : Scope}
      {candidate : Schema.Canonical} {e : StoredSchema} {file : Option Storage}
      (placed : scopeOf subject part = .ok scope) (accepted : canonicalOf schema = .ok candidate)
      (admits : r.Admits scope candidate)
      (known : r.schemas.withFingerprint? (.str candidate.fingerprint) = some e) :
      Effect r (.register subject part schema) (.ok (.id e.id))
        { r with versions := r.versions.add (r.versions.next scope e.id), storage := file }
  | stored {subject schema : Json} {part : Argument Part} {scope : Scope}
      {candidate : Schema.Canonical} {file : Option Storage}
      (placed : scopeOf subject part = .ok scope) (accepted : canonicalOf schema = .ok candidate)
      (admits : r.Admits scope candidate)
      (new : r.schemas.withFingerprint? (.str candidate.fingerprint) = none) :
      Effect r (.register subject part schema) (.ok (.id (r.schemas.lastId + 1)))
        { r with schemas := r.schemas.add (r.schemas.next candidate.text candidate.raw),
                 versions := r.versions.add (r.versions.next scope (r.schemas.lastId + 1)),
                 storage := file }
  | exhausted {subject schema : Json} {part : Argument Part} {candidate : Schema.Canonical}
      {file : Option Storage} (accepted : canonicalOf schema = .ok candidate)
      (new : r.schemas.withFingerprint? (.str candidate.fingerprint) = none) :
      Effect r (.register subject part schema) (.error (.breakdown cellOverflow))
        { r with schemas := r.schemas.add (r.schemas.next candidate.text candidate.raw),
                 storage := file }
  | deleted {op : Operation} {answer : Except Failure Result} {scope : Scope} {numbers : List Int}
      {file : Option Storage} (other : op.registers = false) :
      Effect r op answer { r with versions := r.versions.mark scope numbers, storage := file }
  | configured {op : Operation} {answer : Except Failure Result} {config : Config}
      {file : Option Storage} (other : op.registers = false) :
      Effect r op answer { r with config := config, storage := file }

/-- A step with a result of some kind has an effect of an operation. -/
def Makes {α : Type} (r : Registry) (op : Operation) (step : Step Registry α) (f : α → Result) :
    Prop :=
  Effect r op ((step.outcome r).1.map f) (step.outcome r).2

section

variable {default : Mode} {r : Registry} {op : Operation} {α β : Type} {step : Step Registry α}
  {f : α → Result}

theorem Makes.effect (makes : Makes r op step f)
    (same : perform op = do return f (← step)) :
    Effect r op ((perform op).outcome r).1 ((perform op).outcome r).2 := by
  rw [same, Step.outcome_map]
  exact makes

/-! ## Operations that are no registrations -/

theorem makes_of_looks (looks : step.Looks r) (other : op.registers = false) :
    Makes r op step f := by
  unfold Makes
  rw [show (step.outcome r).2 = r from looks]
  exact .looked other

theorem makes_settle_bind {computed : Except Failure β} {next : β → Step Registry α}
    (rest : ∀ b, computed = .ok b → Makes r op (next b) f) :
    Makes r op (settle computed >>= next) f := by
  cases computed with
  | ok b => exact rest b rfl
  | error failure => exact .refused

/-- A change that is never refused is made as a whole. -/
theorem makes_of_commits {a : α} {after : Registry} (commits : Commits default step r a after True)
    (effect : ∀ file, Effect r op (.ok (f a)) (after.withFile file)) : Makes r op step f := by
  rcases commits with ⟨file, -, made, -⟩ | ⟨-, never, -⟩
  · unfold Makes
    rw [made]
    exact effect file
  · exact absurd trivial never

section

variable (sound : r.Sound default) (subject : Json) (part : Argument Part)
include sound

theorem makes_deleteVersion (version : Json) (other : op.registers = false) (f : Int → Result) :
    Makes r op (deleteVersion subject part version) f := by
  refine makes_settle_bind fun scope _ => makes_settle_bind fun selector _ => ?_
  cases got : r.versions.get scope selector with
  | error failure =>
    unfold Makes
    rw [onVersions_outcome, delete_outcome, got]
    exact .refused
  | ok found => exact makes_of_commits (delete_commits sound got) fun file => .deleted other

theorem makes_deleteSubject (other : op.registers = false) (f : List Int → Result) :
    Makes r op (deleteSubject subject part) f := by
  refine makes_settle_bind fun scope _ => ?_
  cases live : (r.versions.history scope).map (·.number) with
  | nil =>
    refine makes_of_looks ?_ other
    unfold Looks
    rw [onVersions_outcome, deleteAll_outcome, live]
  | cons n rest =>
    exact makes_of_commits (deleteAll_commits sound live (List.cons_ne_nil n rest)) fun file =>
      .deleted other

theorem makes_setGlobalMode (argument : Argument Mode) (other : op.registers = false)
    (f : Mode → Result) : Makes r op (setGlobalMode argument) f := by
  cases parsed : parseMode argument with
  | error failure =>
    unfold Makes setGlobalMode
    rw [onConfig_outcome, setGlobal_outcome, parsed]
    exact .refused
  | ok mode => exact makes_of_commits (setGlobal_commits sound parsed) fun file => .configured other

theorem makes_setModeOf (argument : Argument Mode) (other : op.registers = false)
    (f : Mode → Result) : Makes r op (setModeOf subject part argument) f := by
  refine makes_settle_bind fun scope _ => ?_
  cases parsed : parseMode argument with
  | error failure =>
    unfold Makes
    rw [onConfig_outcome, setOverride_outcome, parsed]
    exact .refused
  | ok mode =>
    exact makes_of_commits (setOverride_commits sound scope parsed) fun file => .configured other

theorem makes_clearModeOf (other : op.registers = false) (f : Mode → Result) :
    Makes r op (clearModeOf subject part) f := by
  refine makes_settle_bind fun scope _ => ?_
  by_cases has : (r.config.override? scope).isSome = true
  · rcases clearOverride_commits sound has with ⟨file, -, made, -⟩ | ⟨-, never, -⟩
    · unfold Makes
      rw [Step.bind_of_ok made]
      exact .configured other
    · exact absurd trivial never
  · refine makes_of_looks ?_ other
    have looked : (onConfig (Config.clearOverride scope)).outcome r = (.ok (), r) := by
      rw [onConfig_outcome, clearOverride_outcome, if_neg has]
    unfold Looks
    rw [Step.bind_of_ok looked]
    rfl

/-! ## Registrations -/

theorem makes_register (schema : Json) :
    Makes r (.register subject part schema) (register subject part schema) Result.id := by
  unfold Makes
  rcases register_cases r subject part schema with
    ⟨failure, unchanged⟩ | ⟨scope, candidate, placed, accepted, held | ⟨admits, enrolled⟩⟩
  · rw [unchanged]
    exact .refused
  · obtain ⟨info, live, unchanged⟩ := held
    rw [unchanged]
    exact .held placed accepted live
  · rw [enrolled]
    cases known : r.schemas.withFingerprint? (.str candidate.fingerprint) with
    | some e =>
      rcases enroll_known sound known admits.unheld with
        ⟨file, -, made, -⟩ | ⟨-, -, r', -, -, -, broke⟩
      · rw [made]
        exact .appended placed accepted admits known
      · rw [broke]
        rcases sound.enroll_failed admits.unheld broke with rfl | ⟨-, -, -, new, -⟩
        · exact .refused
        · cases known.symm.trans new
    | none =>
      rcases enroll_new sound scope known with ⟨file, -, made, -⟩ | ⟨-, -, r', -, -, -, broke⟩
      · rw [made]
        exact .stored placed accepted admits known
      · rw [broke]
        rcases sound.enroll_failed admits.unheld broke with rfl | ⟨id, -, -, -, -, alone⟩
        · exact .refused
        · rcases put_commits sound candidate.raw known with
            ⟨file, -, made, -⟩ | ⟨-, -, _, -, -, -, refused⟩
          · rw [← (Prod.mk.inj (made.symm.trans alone)).2]
            exact .exhausted accepted known
          · cases refused.symm.trans alone

/-! ## All operations -/

/-- Every operation of a sound registry has one of the effects. -/
theorem Sound.perform_effect (op : Operation) :
    Effect r op ((Registry.perform op).outcome r).1 ((Registry.perform op).outcome r).2 := by
  cases op with
  | register subject part schema => exact (makes_register sound subject part schema).effect rfl
  | check subject part schema =>
    exact (makes_of_looks (looks_check subject part r schema) rfl).effect rfl
  | test subject part schema version =>
    exact (makes_of_looks (looks_test subject part r schema version) rfl).effect rfl
  | subjects => exact .looked rfl
  | versionNumbers subject part =>
    exact (makes_of_looks (looks_versionNumbers subject part r) rfl).effect rfl
  | schemaById id => exact (makes_of_looks (looks_schemaById r id) rfl).effect rfl
  | schemaAt subject part version =>
    exact (makes_of_looks (looks_schemaAt subject part r version) rfl).effect rfl
  | deleteVersion subject part version =>
    exact (makes_deleteVersion sound subject part version rfl Result.number).effect rfl
  | deleteSubject subject part =>
    exact (makes_deleteSubject sound subject part rfl Result.numbers).effect rfl
  | globalMode => exact .looked rfl
  | setGlobalMode mode => exact (makes_setGlobalMode sound mode rfl Result.mode).effect rfl
  | modeOf subject part => exact (makes_of_looks (looks_modeOf subject part r) rfl).effect rfl
  | setModeOf subject part mode =>
    exact (makes_setModeOf sound subject part mode rfl Result.mode).effect rfl
  | clearModeOf subject part =>
    exact (makes_clearModeOf sound subject part rfl Result.mode).effect rfl

end

end

end Registry

end AvroRegistry
