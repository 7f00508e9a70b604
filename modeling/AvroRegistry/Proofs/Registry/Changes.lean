import AvroRegistry.Proofs.Storage.Writes
import AvroRegistry.Registry

/-!
# The changes of a registry

What is true of a registry at every moment: its schemas and versions are sound, and a file behind it
holds what it knows. Each of the steps that change a registry is described by one lemma: what it
gives, and the registry afterwards, which is sound again. With a file a change may also break down,
for want of a word to write a number; then the registry is as sound as it was.
-/

namespace AvroRegistry

open Compatibility (Mode)

/-! ## Writing first -/

namespace Backed

variable {σ α : Type}

/-- A change that is written before it is made. -/
def change (write : Step Storage Unit) (after : σ) (a : α) : Step (Backed σ) α := do
  persist write
  remember after
  return a

/-- Where there is a file, something is written to it, after which it is as it should be; or there
is no word for a number, and nothing is written. -/
def Writes (file : Option Storage) (write : Step Storage Unit) (words : Prop)
    (holds : Storage → Prop) : Prop :=
  ∀ handle, file = some handle →
    (∃ handle', write.outcome handle = (.ok (), handle') ∧ holds handle') ∨
      (¬ words ∧ write.outcome handle = (.error (.breakdown cellOverflow), handle))

/-- A change is made if there is no file or if it is written. -/
theorem change_outcome {file : Option Storage} {write : Step Storage Unit} {words : Prop}
    {holds : Storage → Prop} (writes : Writes file write words holds) (memory after : σ) (a : α) :
    (∃ file', file'.isSome = file.isSome ∧ (∀ handle, file' = some handle → holds handle) ∧
        (change write after a).outcome ⟨memory, file⟩ = (.ok a, ⟨after, file'⟩)) ∨
      (file.isSome = true ∧ ¬ words ∧
        (change write after a).outcome ⟨memory, file⟩ =
          (.error (.breakdown cellOverflow), ⟨memory, file⟩)) := by
  cases file with
  | none =>
    have absent : ∀ handle, (none : Option Storage) = some handle → holds handle :=
      fun _ same => nomatch same
    exact .inl ⟨none, rfl, absent, rfl⟩
  | some handle =>
    have first : (persist write : Step (Backed σ) Unit).outcome ⟨memory, some handle⟩ =
        ((write.outcome handle).1, ⟨memory, some (write.outcome handle).2⟩) := rfl
    unfold change
    rcases writes handle rfl with ⟨handle', made, after⟩ | ⟨long, refused⟩
    · rw [made] at first
      refine .inl ⟨some handle', rfl, fun other same => ?_, Step.bind_of_ok first _⟩
      cases same
      exact after
    · rw [refused] at first
      exact .inr ⟨rfl, long, Step.bind_of_error first _⟩

end Backed

/-! ## Sound registries -/

namespace Registry

/-- A registry at any moment: its stores are sound, and a file behind it holds what they know. -/
structure Sound (default : Mode) (r : Registry) : Prop where
  schemas : r.schemas.Sound
  versions : Versions.Sound r.schemas r.versions
  file : ∀ handle, r.storage = some handle → handle.Holds default r.schemas r.versions r.config

/-- The same registry over another file. -/
def withFile (r : Registry) (file : Option Storage) : Registry := { r with storage := file }

/-- A step makes a change: it gives a result and ends in the registry after the change, which is
sound. Only with a file, and if a number is no word, it breaks down, and ends in a sound registry
with the same versions. -/
def Commits {α : Type} (default : Mode) (step : Step Registry α) (r : Registry) (a : α)
    (after : Registry) (words : Prop) : Prop :=
  (∃ file, file.isSome = r.storage.isSome ∧ step.outcome r = (.ok a, after.withFile file) ∧
      (after.withFile file).Sound default) ∨
    (r.storage.isSome = true ∧ ¬ words ∧ ∃ r', r'.storage.isSome = true ∧ r'.Sound default ∧
      r'.versions = r.versions ∧ step.outcome r = (.error (.breakdown cellOverflow), r'))

section

variable {default : Mode} {α : Type}

theorem onSchemas_outcome (step : Step (Backed Schemas) α) (r : Registry) :
    (onSchemas step).outcome r =
      ((step.outcome ⟨r.schemas, r.storage⟩).1,
        { r with schemas := (step.outcome ⟨r.schemas, r.storage⟩).2.memory,
                 storage := (step.outcome ⟨r.schemas, r.storage⟩).2.storage }) := rfl

theorem onVersions_outcome (step : Step (Backed Versions) α) (r : Registry) :
    (onVersions step).outcome r =
      ((step.outcome ⟨r.versions, r.storage⟩).1,
        { r with versions := (step.outcome ⟨r.versions, r.storage⟩).2.memory,
                 storage := (step.outcome ⟨r.versions, r.storage⟩).2.storage }) := rfl

theorem onConfig_outcome (step : Step (Backed Config) α) (r : Registry) :
    (onConfig step).outcome r =
      ((step.outcome ⟨r.config, r.storage⟩).1,
        { r with config := (step.outcome ⟨r.config, r.storage⟩).2.memory,
                 storage := (step.outcome ⟨r.config, r.storage⟩).2.storage }) := rfl

variable {r : Registry} {words : Prop} {a : α}

/-- A step on the schemas commits if it is a change that is written and leaves sound stores. -/
theorem commits_onSchemas (sound : r.Sound default) (write : Step Storage Unit)
    {step : Step (Backed Schemas) α} {after : Schemas}
    (ran : step.outcome ⟨r.schemas, r.storage⟩ =
      (Backed.change write after a).outcome ⟨r.schemas, r.storage⟩)
    (writes : Backed.Writes r.storage write words fun handle =>
      handle.Holds default after r.versions r.config)
    (soundS : after.Sound) (soundV : Versions.Sound after r.versions) :
    Commits default (onSchemas step) r a { r with schemas := after } words := by
  unfold Commits
  rw [onSchemas_outcome, ran]
  rcases Backed.change_outcome writes r.schemas after a with
    ⟨file, files, holds, made⟩ | ⟨files, long, refused⟩
  · rw [made]
    exact .inl ⟨file, files, rfl, soundS, soundV, holds⟩
  · rw [refused]
    exact .inr ⟨files, long, r, files, sound, rfl, rfl⟩

/-- A step on the versions commits if it is a change that is written and leaves them sound. -/
theorem commits_onVersions (sound : r.Sound default) (write : Step Storage Unit)
    {step : Step (Backed Versions) α} {after : Versions}
    (ran : step.outcome ⟨r.versions, r.storage⟩ =
      (Backed.change write after a).outcome ⟨r.versions, r.storage⟩)
    (writes : Backed.Writes r.storage write words fun handle =>
      handle.Holds default r.schemas after r.config)
    (soundV : Versions.Sound r.schemas after) :
    Commits default (onVersions step) r a { r with versions := after } words := by
  unfold Commits
  rw [onVersions_outcome, ran]
  rcases Backed.change_outcome writes r.versions after a with
    ⟨file, files, holds, made⟩ | ⟨files, long, refused⟩
  · rw [made]
    exact .inl ⟨file, files, rfl, sound.schemas, soundV, holds⟩
  · rw [refused]
    exact .inr ⟨files, long, r, files, sound, rfl, rfl⟩

/-- A step on the modes commits if it is a change that is written. -/
theorem commits_onConfig (sound : r.Sound default) (write : Step Storage Unit)
    {step : Step (Backed Config) α} {after : Config}
    (ran : step.outcome ⟨r.config, r.storage⟩ =
      (Backed.change write after a).outcome ⟨r.config, r.storage⟩)
    (writes : ∀ handle, r.storage = some handle →
      ∃ handle', write.outcome handle = (.ok (), handle') ∧
        handle'.Holds default r.schemas r.versions after) :
    Commits default (onConfig step) r a { r with config := after } True := by
  have written : Backed.Writes r.storage write True fun handle =>
      handle.Holds default r.schemas r.versions after := fun handle same =>
    .inl (writes handle same)
  unfold Commits
  rw [onConfig_outcome, ran]
  rcases Backed.change_outcome written r.config after a with
    ⟨file, files, holds, made⟩ | ⟨-, never, -⟩
  · rw [made]
    exact .inl ⟨file, files, rfl, sound.schemas, sound.versions, holds⟩
  · exact absurd trivial never

/-! ## Storing a schema -/

/-- A fingerprint says something. -/
theorem fingerprint_truthy (text : String) :
    (Json.str (Schema.fingerprint text)).truthy = true := by
  show (Schema.fingerprint text != "") = true
  rw [bne_iff_ne]
  intro empty
  have letters := congrArg String.toList empty
  unfold Schema.fingerprint at letters
  rw [String.toList_append] at letters
  cases letters

theorem put_outcome (s : Schemas) (file : Option Storage) (canonical raw : String) :
    (Schemas.put (.str canonical) (.str raw) (.str (Schema.fingerprint canonical))).outcome
        ⟨s, file⟩ =
      match s.withFingerprint? (.str (Schema.fingerprint canonical)) with
      | some existing => (.ok existing.id, ⟨s, file⟩)
      | none =>
        (Backed.change (Storage.insertSchema (s.next canonical raw).draft)
          (s.add (s.next canonical raw)) (s.lastId + 1)).outcome ⟨s, file⟩ := by
  have address : Schemas.addressOf (.str canonical) (.str (Schema.fingerprint canonical)) =
      .ok (.str (Schema.fingerprint canonical)) := if_pos (fingerprint_truthy canonical)
  unfold Schemas.put
  rw [address]
  show (match s.withFingerprint? (.str (Schema.fingerprint canonical)) with
    | some existing => pure existing.id
    | none => _ : Step (Backed Schemas) Int).outcome ⟨s, file⟩ = _
  cases s.withFingerprint? (.str (Schema.fingerprint canonical)) <;> rfl

/-- Storing a schema whose fingerprint is there changes nothing. -/
theorem put_known {canonical : String} (raw : String) {e : StoredSchema}
    (known : r.schemas.withFingerprint? (.str (Schema.fingerprint canonical)) = some e) :
    (onSchemas (Schemas.put (.str canonical) (.str raw)
      (.str (Schema.fingerprint canonical)))).outcome r = (.ok e.id, r) := by
  rw [onSchemas_outcome, put_outcome, known]

/-- Storing a schema whose fingerprint is new adds it. -/
theorem put_commits (sound : r.Sound default) {canonical : String} (raw : String)
    (absent : r.schemas.withFingerprint? (.str (Schema.fingerprint canonical)) = none) :
    Commits default (onSchemas (Schemas.put (.str canonical) (.str raw)
        (.str (Schema.fingerprint canonical)))) r (r.schemas.lastId + 1)
      { r with schemas := r.schemas.add (r.schemas.next canonical raw) }
      (isWord (r.schemas.lastId + 1) = true) := by
  have soundV : Versions.Sound (r.schemas.add (r.schemas.next canonical raw)) r.versions :=
    sound.versions.mono (List.subset_append_left _ _)
  refine commits_onSchemas sound (Storage.insertSchema (r.schemas.next canonical raw).draft) ?_
    (fun handle same => ?_) (sound.schemas.add raw absent) soundV
  · rw [put_outcome, absent]
  · have holds := sound.file handle same
    cases word : isWord (r.schemas.lastId + 1) with
    | true => exact .inl (holds.addSchema sound.schemas raw absent word)
    | false =>
      have named : (r.schemas.next canonical raw).draft.id = .int (r.schemas.lastId + 1) := rfl
      exact .inr ⟨Bool.false_ne_true, holds.insertSchema_overflow named word⟩

/-! ## Appending a version -/

theorem append_outcome (v : Versions) (file : Option Storage) (scope : Scope) (id : Int) :
    (Versions.append scope (.int id)).outcome ⟨v, file⟩ =
      match v.holding? scope (.int id) with
      | some existing => (.error (.fault (.alreadyExists existing)), ⟨v, file⟩)
      | none =>
        (Backed.change (Storage.insertVersion (v.next scope id).draft) (v.add (v.next scope id))
          (v.maxNumber scope + 1)).outcome ⟨v, file⟩ := by
  show (match v.holding? scope (.int id) with
    | some existing => Step.refuse (.alreadyExists existing)
    | none => _ : Step (Backed Versions) Int).outcome ⟨v, file⟩ = _
  cases v.holding? scope (.int id) <;> rfl

/-- A version is appended where no live version of the scope holds its schema. -/
theorem append_commits (sound : r.Sound default) {scope : Scope} {e : StoredSchema}
    (stored : e ∈ r.schemas.entries) (none : r.versions.holding? scope (.int e.id) = none) :
    Commits default (onVersions (Versions.append scope (.int e.id))) r
      (r.versions.maxNumber scope + 1)
      { r with versions := r.versions.add (r.versions.next scope e.id) }
      (isWord (r.versions.maxNumber scope + 1) = true) := by
  refine commits_onVersions sound (Storage.insertVersion (r.versions.next scope e.id).draft) ?_
    (fun handle same => ?_) (sound.versions.add stored none)
  · rw [append_outcome, none]
  · have holds := sound.file handle same
    cases word : isWord (r.versions.maxNumber scope + 1) with
    | true => exact .inl (holds.addVersion sound.versions scope stored word)
    | false =>
      have named : (r.versions.next scope e.id).draft.number =
          .int (r.versions.maxNumber scope + 1) := rfl
      exact .inr ⟨Bool.false_ne_true, holds.insertVersion_overflow named word⟩

/-! ## Deleting versions -/

theorem delete_outcome (v : Versions) (file : Option Storage) (scope : Scope)
    (selector : Selector) :
    (Versions.delete scope selector).outcome ⟨v, file⟩ =
      match v.get scope selector with
      | .error f => (.error f, ⟨v, file⟩)
      | .ok found =>
        (Backed.change (Storage.markDeleted scope ([found.number].map .int))
          (v.mark scope [found.number]) found.number).outcome ⟨v, file⟩ := by
  show (match v.get scope selector with
    | .error f => throw f
    | .ok found => _ : Step (Backed Versions) Int).outcome ⟨v, file⟩ = _
  cases v.get scope selector <;> rfl

theorem deleteAll_outcome (v : Versions) (file : Option Storage) (scope : Scope) :
    (Versions.deleteAll scope).outcome ⟨v, file⟩ =
      match (v.history scope).map (·.number) with
      | [] => (.ok [], ⟨v, file⟩)
      | n :: rest =>
        (Backed.change (Storage.markDeleted scope ((n :: rest).map .int))
          (v.mark scope (n :: rest)) (n :: rest)).outcome ⟨v, file⟩ := by
  have known : (Backed.inMemory : Step (Backed Versions) Versions).outcome ⟨v, file⟩ =
    (.ok v, ⟨v, file⟩) := rfl
  unfold Versions.deleteAll
  rw [Step.bind_of_ok known]
  cases (v.history scope).map (·.number) <;> rfl

/-- A version that is found is marked as deleted. -/
theorem delete_commits (sound : r.Sound default) {scope : Scope} {selector : Selector}
    {found : Version} (got : r.versions.get scope selector = .ok found) :
    Commits default (onVersions (Versions.delete scope selector)) r found.number
      { r with versions := r.versions.mark scope [found.number] } True := by
  have known := Versions.mem_rows_of_get got
  have listed : ∀ n ∈ [found.number], ∃ row ∈ r.versions.rows, row.number = n := by
    intro n mem
    rw [List.mem_singleton.1 mem]
    exact ⟨found, known, rfl⟩
  refine commits_onVersions sound (Storage.markDeleted scope ([found.number].map .int)) ?_
    (fun handle same => ?_) (sound.versions.mark scope _)
  · rw [delete_outcome, got]
  · exact .inl ((sound.file handle same).mark scope (List.cons_ne_nil _ _) listed)

/-- The live versions of a scope are marked as deleted. -/
theorem deleteAll_commits (sound : r.Sound default) {scope : Scope} {numbers : List Int}
    (live : (r.versions.history scope).map (·.number) = numbers) (some : numbers ≠ []) :
    Commits default (onVersions (Versions.deleteAll scope)) r numbers
      { r with versions := r.versions.mark scope numbers } True := by
  have listed : ∀ n ∈ numbers, ∃ row ∈ r.versions.rows, row.number = n := by
    intro n mem
    rw [← live] at mem
    obtain ⟨row, known, number⟩ := List.mem_map.1 mem
    exact ⟨row, (Versions.mem_history.1 known).1, number⟩
  obtain ⟨n, rest, rfl⟩ := List.exists_cons_of_ne_nil some
  refine commits_onVersions sound (Storage.markDeleted scope ((n :: rest).map .int)) ?_
    (fun handle same => ?_) (sound.versions.mark scope _)
  · rw [deleteAll_outcome, live]
  · exact .inl ((sound.file handle same).mark scope some listed)

/-! ## Changing modes -/

theorem setGlobal_outcome (c : Config) (file : Option Storage) (argument : Argument Mode) :
    (Config.setGlobal argument).outcome ⟨c, file⟩ =
      match parseMode argument with
      | .error f => (.error f, ⟨c, file⟩)
      | .ok mode =>
        (Backed.change (Storage.upsertConfig (.str globalKey) (.str mode.name))
          { c with global := mode } mode).outcome ⟨c, file⟩ := by
  unfold Config.setGlobal
  cases parseMode argument <;> rfl

theorem setOverride_outcome (c : Config) (file : Option Storage) (scope : Scope)
    (argument : Argument Mode) :
    (Config.setOverride scope argument).outcome ⟨c, file⟩ =
      match parseMode argument with
      | .error f => (.error f, ⟨c, file⟩)
      | .ok mode =>
        (Backed.change (Storage.upsertConfig (.str scope.render) (.str mode.name))
          (c.withOverride scope mode) mode).outcome ⟨c, file⟩ := by
  unfold Config.setOverride
  cases parseMode argument <;> rfl

theorem clearOverride_outcome (c : Config) (file : Option Storage) (scope : Scope) :
    (Config.clearOverride scope).outcome ⟨c, file⟩ =
      if (c.override? scope).isSome then
        (Backed.change (Storage.deleteConfig (.str scope.render)) (c.without scope) ()).outcome
          ⟨c, file⟩
      else (.ok (), ⟨c, file⟩) := by
  show (if (c.override? scope).isSome then _ else pure () : Step (Backed Config) Unit).outcome
    ⟨c, file⟩ = _
  split
  · unfold Backed.change
    rw [Step.outcome_bind, Step.outcome_bind]
    rfl
  · rfl

theorem setGlobal_commits (sound : r.Sound default) {argument : Argument Mode} {mode : Mode}
    (parsed : parseMode argument = .ok mode) :
    Commits default (onConfig (Config.setGlobal argument)) r mode
      { r with config := { r.config with global := mode } } True := by
  refine commits_onConfig sound (Storage.upsertConfig (.str globalKey) (.str mode.name)) ?_
    fun handle same => (sound.file handle same).setGlobal mode
  rw [setGlobal_outcome, parsed]

theorem setOverride_commits (sound : r.Sound default) (scope : Scope) {argument : Argument Mode}
    {mode : Mode} (parsed : parseMode argument = .ok mode) :
    Commits default (onConfig (Config.setOverride scope argument)) r mode
      { r with config := r.config.withOverride scope mode } True := by
  refine commits_onConfig sound (Storage.upsertConfig (.str scope.render) (.str mode.name)) ?_
    fun handle same => (sound.file handle same).setOverride scope mode
  rw [setOverride_outcome, parsed]

theorem clearOverride_commits (sound : r.Sound default) {scope : Scope}
    (has : (r.config.override? scope).isSome = true) :
    Commits default (onConfig (Config.clearOverride scope)) r ()
      { r with config := r.config.without scope } True := by
  refine commits_onConfig sound (Storage.deleteConfig (.str scope.render)) ?_
    fun handle same => (sound.file handle same).clearOverride scope
  rw [clearOverride_outcome, if_pos has]

end

end Registry

end AvroRegistry
