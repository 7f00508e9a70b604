import AvroRegistry.Proofs.Registry.Atomic
import AvroRegistry.Proofs.Registry.Reachable
import AvroRegistry.Proofs.Registry.Registering

/-!
# Operations that fail

An operation of a registry that fails leaves the registry as it was: its stores, and the file with
all its tables. It works out what it needs before it changes anything, and makes a single change
then, which is atomic.

Registering a schema that is new makes two changes, the second after the first. The second is not
refused, but on a file it can break down: a scope whose last number is the last of 64 bits has no
number left for the version. `Exhausts` describes this one failure, after which the schema stays
stored.
-/

namespace AvroRegistry

open Compatibility (Mode)
open Step (Atomic Looks)

namespace Registry

section

variable {r : Registry} {α β : Type}

/-! ## Parts of operations -/

theorem looks_settle (computed : Except Failure α) (r : Registry) : (settle computed).Looks r := by
  cases computed <;> rfl

theorem looks_settle_bind {computed : Except Failure α} {f : α → Step Registry β}
    (next : ∀ a, (f a).Looks r) : Looks (settle computed >>= f) r :=
  (looks_settle computed r).bind fun a _ => next a

theorem atomic_settle_bind {computed : Except Failure α} {f : α → Step Registry β}
    (next : ∀ a, (f a).Atomic r) : Atomic (settle computed >>= f) r :=
  .bind_looks (looks_settle computed r) fun a _ => next a

theorem looks_get_bind {f : Registry → Step Registry β} (next : (f r).Looks r) :
    Looks (get >>= f) r := next

/-- A condition is asked for before anything is done. -/
theorem looks_unless (c : Prop) [Decidable c] (f : Fault) {x : Step Registry α}
    (next : x.Looks r) : Looks (if c then Step.refuse f >>= fun _ : PUnit => x else x) r := by
  split
  · rfl
  · exact next

theorem atomic_onSchemas {step : Step (Backed Schemas) α}
    (atomic : step.Atomic ⟨r.schemas, r.storage⟩) : (onSchemas step).Atomic r := by
  intro failure t failed
  rw [onSchemas_outcome] at failed
  obtain ⟨refused, rfl⟩ := Prod.mk.inj failed
  have same := atomic failure _ (Prod.ext refused rfl)
  exact congrArg
    (fun b : Backed Schemas => { r with schemas := b.memory, storage := b.storage }) same

theorem atomic_onVersions {step : Step (Backed Versions) α}
    (atomic : step.Atomic ⟨r.versions, r.storage⟩) : (onVersions step).Atomic r := by
  intro failure t failed
  rw [onVersions_outcome] at failed
  obtain ⟨refused, rfl⟩ := Prod.mk.inj failed
  have same := atomic failure _ (Prod.ext refused rfl)
  exact congrArg
    (fun b : Backed Versions => { r with versions := b.memory, storage := b.storage }) same

theorem atomic_onConfig {step : Step (Backed Config) α}
    (atomic : step.Atomic ⟨r.config, r.storage⟩) : (onConfig step).Atomic r := by
  intro failure t failed
  rw [onConfig_outcome] at failed
  obtain ⟨refused, rfl⟩ := Prod.mk.inj failed
  have same := atomic failure _ (Prod.ext refused rfl)
  exact congrArg (fun b : Backed Config => { r with config := b.memory, storage := b.storage }) same

end

/-! ## Operations that only look -/

section

variable (subject : Json) (part : Argument Part) (r : Registry)

theorem looks_check (schema : Json) : (check subject part schema).Looks r := by
  refine looks_settle_bind fun scope => looks_settle_bind fun candidate => ?_
  refine looks_get_bind (looks_unless _ _ ?_)
  cases r.live? scope candidate.fingerprint <;> rfl

theorem looks_test (schema version : Json) : (test subject part schema version).Looks r := by
  refine looks_settle_bind fun scope => looks_settle_bind fun selector => ?_
  refine looks_settle_bind fun candidate => looks_get_bind ?_
  exact looks_settle_bind fun against => looks_settle_bind fun found => rfl

theorem looks_versionNumbers : (versionNumbers subject part).Looks r :=
  looks_settle_bind fun _ => looks_get_bind (looks_settle _ r)

theorem looks_schemaById (id : Json) : (schemaById id).Looks r :=
  looks_settle_bind fun _ => looks_get_bind (looks_settle _ r)

theorem looks_schemaAt (version : Json) : (schemaAt subject part version).Looks r := by
  refine looks_settle_bind fun scope => looks_settle_bind fun selector => ?_
  exact looks_get_bind (looks_settle_bind fun found => looks_settle_bind fun schema => rfl)

theorem looks_modeOf : (modeOf subject part).Looks r :=
  looks_settle_bind fun _ => looks_get_bind rfl

/-! ## Operations with one change -/

theorem atomic_deleteVersion (version : Json) : (deleteVersion subject part version).Atomic r :=
  atomic_settle_bind fun scope => atomic_settle_bind fun _ =>
    atomic_onVersions (Versions.atomic_deleteFound scope _ _)

theorem atomic_deleteSubject
    (fitting : Versions.Fitting ⟨r.versions, r.storage⟩) : (deleteSubject subject part).Atomic r :=
  atomic_settle_bind fun scope => atomic_onVersions (Versions.atomic_deleteAll scope fitting)

theorem atomic_setGlobalMode (mode : Argument Mode) : (setGlobalMode mode).Atomic r :=
  atomic_onConfig (Config.atomic_setGlobal _ mode)

theorem atomic_setModeOf (mode : Argument Mode) : (setModeOf subject part mode).Atomic r :=
  atomic_settle_bind fun scope => atomic_onConfig (Config.atomic_setOverride _ mode scope)

theorem atomic_clearModeOf : (clearModeOf subject part).Atomic r :=
  atomic_settle_bind fun scope =>
    (atomic_onConfig (Config.atomic_clearOverride _ scope)).bind_ok fun _ t =>
      ⟨t.config.effective scope, t, rfl⟩

end

/-! ## Registering -/

/-- A schema is registered on a file that has no number left for the version: the schema is new and
is stored, and then the next number of the scope breaks down as it is no word. The registry is left
as it is when the schema alone has been stored. -/
inductive Exhausts (r : Registry) : Operation → Failure → Registry → Prop where
  | register {subject schema : Json} {part : Argument Part} {scope : Scope}
      {candidate : Schema.Canonical} {id : Int} {r' : Registry}
      (placed : scopeOf subject part = .ok scope)
      (accepted : canonicalOf schema = .ok candidate)
      (backed : r.storage.isSome = true)
      (new : r.schemas.withFingerprint? (.str candidate.fingerprint) = none)
      (long : isWord (r.versions.maxNumber scope + 1) = false)
      (stored : (onSchemas (Schemas.put (.str candidate.text) (.str candidate.raw)
        (.str candidate.fingerprint))).outcome r = (.ok id, r')) :
      Exhausts r (.register subject part schema) (.breakdown cellOverflow) r'

section

variable {default : Mode} {r : Registry} {scope : Scope} {candidate : Schema.Canonical}

/-- A step stays atomic where its failures are handled. -/
theorem atomic_unlessHeld {α : Type} {step : Step Registry α} (atomic : step.Atomic r) :
    Atomic (tryCatch (discard step) unlessHeld) r := by
  intro failure r' failed
  rw [Step.outcome_tryCatch, Step.outcome_discard] at failed
  cases ran : step.outcome r with
  | mk result t =>
    rw [ran] at failed
    cases result with
    | ok a => cases failed
    | error refused =>
      cases atomic refused t ran
      cases refused with
      | breakdown b =>
        cases failed
        rfl
      | fault f =>
        cases f with
        | alreadyExists existing => cases failed
        | _ =>
          cases failed
          rfl

/-- Enrolling a schema fails as a whole, or because no number is left for a version of a schema that
has just been stored. -/
theorem Sound.enroll_failed (sound : r.Sound default)
    (unheld : r.live? scope candidate.fingerprint = none) {failure : Failure} {r' : Registry}
    (failed : (enroll scope candidate).outcome r = (.error failure, r')) :
    r' = r ∨ ∃ id, failure = .breakdown cellOverflow ∧ r.storage.isSome = true ∧
      r.schemas.withFingerprint? (.str candidate.fingerprint) = none ∧
      isWord (r.versions.maxNumber scope + 1) = false ∧
      (onSchemas (Schemas.put (.str candidate.text) (.str candidate.raw)
        (.str candidate.fingerprint))).outcome r = (.ok id, r') := by
  have storing : (onSchemas (Schemas.put (.str candidate.text) (.str candidate.raw)
      (.str candidate.fingerprint))).Atomic r := atomic_onSchemas (Schemas.atomic_put _ _ _ _)
  rw [enroll_eq] at failed
  cases put : (onSchemas (Schemas.put (.str candidate.text) (.str candidate.raw)
      (.str candidate.fingerprint))).outcome r with
  | mk result between =>
    cases result with
    | error refused =>
      rw [Step.bind_of_error put] at failed
      cases failed
      exact .inl (storing _ _ put)
    | ok id =>
      rw [Step.bind_of_ok put] at failed
      obtain ⟨sound', e, stored, rfl, none⟩ := sound.put_unheld unheld put
      rcases (append_commits sound' stored none).unlessHeld with
        ⟨file, files, appended, -⟩ | ⟨backed, long, r'', -, -, -, refused⟩
      · rw [Step.bind_of_ok appended] at failed
        cases failed
      · rw [Step.bind_of_error refused] at failed
        cases failed
        cases atomic_unlessHeld (atomic_onVersions (Versions.atomic_append _ _ _)) _ _ refused
        cases known : r.schemas.withFingerprint? (.str candidate.fingerprint) with
        | some e =>
          have unchanged := put_known candidate.raw known
          exact .inl (Prod.mk.inj (put.symm.trans unchanged)).2
        | none =>
          rcases put_commits sound candidate.raw known with
            ⟨file, files, added, -⟩ | ⟨-, -, _, -, -, -, broke⟩
          · have same := (Prod.mk.inj (added.symm.trans put)).2
            rw [← same] at backed long
            exact .inr ⟨e.id, rfl, files ▸ backed, rfl, Bool.eq_false_iff.2 long, rfl⟩
          · cases broke.symm.trans put

theorem Sound.perform_failed (sound : r.Sound default) (op : Operation) {failure : Failure}
    {r' : Registry} (failed : (Registry.perform op).outcome r = (.error failure, r')) :
    r' = r ∨ Exhausts r op failure r' := by
  cases op with
  | register subject part schema =>
    have ran : ((register subject part schema).outcome r).1.map Result.id = .error failure ∧
        ((register subject part schema).outcome r).2 = r' :=
      Prod.mk.inj ((Step.outcome_map (register subject part schema) Result.id r).symm.trans failed)
    rcases register_cases r subject part schema with
      ⟨refused, unchanged⟩ | ⟨scope, candidate, placed, accepted, held | ⟨admits, enrolled⟩⟩
    · rw [unchanged] at ran
      exact .inl ran.2.symm
    · obtain ⟨info, -, unchanged⟩ := held
      rw [unchanged] at ran
      exact .inl ran.2.symm
    · rw [enrolled] at ran
      cases outcome : (enroll scope candidate).outcome r with
      | mk result t =>
        rw [outcome] at ran
        obtain ⟨refused, rfl⟩ := ran
        cases result with
        | ok id => cases refused
        | error f =>
          cases refused
          rcases sound.enroll_failed admits.unheld outcome with
            same | ⟨id, rfl, backed, new, long, stored⟩
          · exact .inl same
          · exact .inr (.register placed accepted backed new long stored)
  | deleteSubject subject part =>
    refine .inl ((atomic_deleteSubject subject part r fun backed row known => ?_).map _ _ _ failed)
    obtain ⟨handle, same⟩ := Option.isSome_iff_exists.1 backed
    obtain ⟨t, -, holds⟩ := (sound.file handle same).tables
    exact holds.numbers row known
  | check subject part schema =>
    exact .inl ((looks_check subject part r schema).atomic.map _ _ _ failed)
  | test subject part schema version =>
    exact .inl ((looks_test subject part r schema version).atomic.map _ _ _ failed)
  | subjects => cases failed
  | versionNumbers subject part =>
    exact .inl ((looks_versionNumbers subject part r).atomic.map _ _ _ failed)
  | schemaById id => exact .inl ((looks_schemaById r id).atomic.map _ _ _ failed)
  | schemaAt subject part version =>
    exact .inl ((looks_schemaAt subject part r version).atomic.map _ _ _ failed)
  | deleteVersion subject part version =>
    exact .inl ((atomic_deleteVersion subject part r version).map _ _ _ failed)
  | globalMode => cases failed
  | setGlobalMode mode => exact .inl ((atomic_setGlobalMode r mode).map _ _ _ failed)
  | modeOf subject part => exact .inl ((looks_modeOf subject part r).atomic.map _ _ _ failed)
  | setModeOf subject part mode =>
    exact .inl ((atomic_setModeOf subject part r mode).map _ _ _ failed)
  | clearModeOf subject part => exact .inl ((atomic_clearModeOf subject part r).map _ _ _ failed)

/-- The scope of the values of orders. -/
def orders : Scope := ⟨"orders", .value, by decide⟩

/-- An index that was read from a new file and has got a version. -/
def appended : Backed Versions :=
  ((Versions.append orders (.int 1)).outcome
    ⟨{}, some (Storage.ready { path := "registry.db" } {})⟩).2

end

/-! ## A scope without a next number -/

section

variable {r : Registry} {scope : Scope} {subject schema : Json} {part : Argument Part}
  {candidate : Schema.Canonical} {default : Mode}

/-- Any schema is admitted to a scope without live versions. -/
theorem admits_of_empty (empty : r.versions.history scope = []) (candidate : Schema.Canonical) :
    r.Admits scope candidate where
  unheld := by
    have unheld : ∀ id : Json, r.versions.holding? scope id = none := fun id => by
      refine List.find?_eq_none.2 fun version mem held => ?_
      obtain ⟨-, live⟩ := Bool.and_eq_true _ _ ▸ held
      have listed : version ∈ r.versions.history scope := List.mem_filter.2 ⟨mem, live⟩
      rw [empty] at listed
      cases listed
    unfold live?
    cases r.schemas.withFingerprint? (.str candidate.fingerprint) with
    | none => rfl
    | some e =>
      show (r.versions.holding? scope (.int e.id) >>= _) = _
      rw [unheld]
      rfl
  compatible := by
    have none : references (r.config.effective scope) (r.versions.history scope) = [] := by
      rw [empty]
      unfold references
      split <;> rfl
    rw [none]
    unfold violations formsOf
    cases r.config.effective scope <;> rfl

/-- A scope with live versions can be emptied, which takes no number. -/
theorem Reachable.emptied (reachable : Reachable default r)
    (placed : scopeOf subject part = .ok scope) (some : r.versions.history scope ≠ []) :
    ∃ r', Reachable default r' ∧ r'.storage.isSome = r.storage.isSome ∧ r'.schemas = r.schemas ∧
      r'.versions.maxNumber scope = r.versions.maxNumber scope ∧
      r'.versions.history scope = [] := by
  have numbers : (r.versions.history scope).map (·.number) ≠ [] := mt List.map_eq_nil_iff.1 some
  rcases deleteAll_commits reachable.sound rfl numbers with
    ⟨file, files, deleted, -⟩ | ⟨-, never, -⟩
  · refine ⟨_, reachable.perform (.deleteSubject subject part), ?_⟩
    have left : ((Registry.perform (.deleteSubject subject part)).outcome r).2 =
        { r with versions := r.versions.mark scope ((r.versions.history scope).map (·.number)),
                 storage := file } := by
      refine (Prod.mk.inj (Step.outcome_map (deleteSubject subject part) Result.numbers r)).2.trans
        ?_
      unfold deleteSubject
      rw [settle_ok_outcome placed, deleted]
      rfl
    rw [left]
    exact ⟨files, rfl, Versions.maxNumber_mark _ scope _ scope, Versions.history_marked rfl⟩
  · exact absurd trivial never

/-- A stored schema can be enrolled in a scope without live versions, which takes one number. -/
theorem Reachable.enrolled (reachable : Reachable default r)
    (placed : scopeOf subject part = .ok scope) (accepted : canonicalOf schema = .ok candidate)
    {e : StoredSchema}
    (known : r.schemas.withFingerprint? (.str candidate.fingerprint) = some e)
    (empty : r.versions.history scope = [])
    (word : isWord (r.versions.maxNumber scope + 1) = true) :
    ∃ r', Reachable default r' ∧ r'.storage.isSome = r.storage.isSome ∧ r'.schemas = r.schemas ∧
      r'.versions.maxNumber scope = r.versions.maxNumber scope + 1 ∧
      r'.versions.history scope ≠ [] := by
  have admits := admits_of_empty empty candidate
  rcases enroll_known reachable.sound known admits.unheld with
    ⟨file, files, enrolled, -⟩ | ⟨-, long, -⟩
  · refine ⟨_, reachable.perform (.register subject part schema), ?_⟩
    have left : ((Registry.perform (.register subject part schema)).outcome r).2 =
        { r with versions := r.versions.add (r.versions.next scope e.id), storage := file } := by
      refine (Prod.mk.inj (Step.outcome_map (register subject part schema) Result.id r)).2.trans ?_
      rw [register_admitted placed accepted admits, enrolled]
      rfl
    rw [left]
    refine ⟨files, rfl, Versions.maxNumber_next _ scope e.id, ?_⟩
    rw [Versions.history_next]
    exact List.concat_ne_nil _ _
  · exact absurd word long

/-- Registering a stored schema and deleting the scope again and again, any number can be made the
highest one of the scope, if it is a word. -/
theorem Reachable.numbered (reachable : Reachable default r)
    (placed : scopeOf subject part = .ok scope) (accepted : canonicalOf schema = .ok candidate)
    {e : StoredSchema}
    (known : r.schemas.withFingerprint? (.str candidate.fingerprint) = some e)
    (empty : r.versions.history scope = []) {n : Int} (above : r.versions.maxNumber scope ≤ n)
    (word : isWord n = true) :
    ∃ r', Reachable default r' ∧ r'.storage.isSome = r.storage.isSome ∧ r'.schemas = r.schemas ∧
      r'.versions.maxNumber scope = n ∧ r'.versions.history scope = [] := by
  induction n, above using Int.leInduction with
  | base => exact ⟨r, reachable, rfl, rfl, rfl, empty⟩
  | succ n above ih =>
    have nonneg := (reachable.sound.versions.maxNumber_nonneg scope).trans above
    obtain ⟨r₁, reachable₁, files₁, schemas₁, highest₁, empty₁⟩ := ih (isWord_of_succ nonneg word)
    rw [← schemas₁] at known
    rw [← highest₁] at word
    obtain ⟨r₂, reachable₂, files₂, schemas₂, highest₂, live⟩ :=
      reachable₁.enrolled placed accepted known empty₁ word
    obtain ⟨r₃, reachable₃, files₃, schemas₃, highest₃, empty₃⟩ := reachable₂.emptied placed live
    exact ⟨r₃, reachable₃, files₃.trans (files₂.trans files₁),
      schemas₃.trans (schemas₂.trans schemas₁),
      highest₃.trans (highest₂.trans (highest₁ ▸ rfl)), empty₃⟩

end

end Registry

end AvroRegistry
