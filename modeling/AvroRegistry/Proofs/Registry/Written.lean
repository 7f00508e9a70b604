import AvroRegistry.Proofs.Registry.Failing

/-!
# What operations write

An operation changes the file of a registry by changes of its tables, and `Operation.Writes` says
which ones it can make: they are about the scope that its arguments name, or about the global mode,
or store a schema. So whatever can be seen of a file and is the same after each of these changes is
the same after the operation, whether it gives a result or fails, and whatever the registry was
(`fixes_perform_of_writes`). This is shown for the steps on a handle first, then for those on a store
with a file behind it, and then for the operations, which are made of them.

One thing that no change of tables touches is where the file is. So operations read and write the
file of a registry, but they never move the registry to another one.
-/

namespace AvroRegistry

namespace Step

variable {σ τ α β : Type} {view : σ → τ}

/-- A step leaves something that can be seen of the state as it is, wherever it starts. -/
def Fixes (view : σ → τ) (step : Step σ α) : Prop := ∀ s, view (step.outcome s).2 = view s

theorem fixes_pure (a : α) : (pure a : Step σ α).Fixes view := fun _ => rfl

theorem fixes_throw (f : Failure) : (throw f : Step σ α).Fixes view := fun _ => rfl

theorem fixes_refuse (f : Fault) : (refuse f : Step σ α).Fixes view := fun _ => rfl

theorem fixes_of_looks {step : Step σ α} (looks : ∀ s, step.Looks s) : step.Fixes view :=
  fun s => congrArg view (looks s)

theorem Fixes.bind {x : Step σ α} {f : α → Step σ β} (first : x.Fixes view)
    (next : ∀ a, (f a).Fixes view) : (x >>= f).Fixes view := by
  intro s
  have before := first s
  rw [outcome_bind]
  cases ran : x.outcome s with
  | mk result t =>
    rw [ran] at before
    cases result with
    | ok a => exact (next a t).trans before
    | error failure => exact before

theorem Fixes.map {x : Step σ α} (fixes : x.Fixes view) (f : α → β) :
    (do return f (← x) : Step σ β).Fixes view := fixes.bind fun a => fixes_pure (f a)

theorem Fixes.discard {x : Step σ α} (fixes : x.Fixes view) :
    (discard x : Step σ PUnit).Fixes view := fixes.bind fun _ => fixes_pure PUnit.unit

theorem Fixes.tryCatch {x : Step σ α} {handle : Failure → Step σ α} (first : x.Fixes view)
    (next : ∀ failure, (handle failure).Fixes view) : (tryCatch x handle).Fixes view := by
  intro s
  have before := first s
  rw [outcome_tryCatch]
  cases ran : x.outcome s with
  | mk result t =>
    rw [ran] at before
    cases result with
    | ok a => exact before
    | error failure => exact (next failure t).trans before

end Step

open Step (fixes_pure fixes_throw fixes_refuse fixes_of_looks)

/-! ## Handles -/

namespace Storage

variable {τ : Type} {view : Storage → τ}

/-- What can be seen of a file is the same when its tables have been changed. -/
def Ignores (view : Storage → τ) (write : Tables → Except TableFailure Tables) : Prop :=
  ∀ (handle : Storage) (t t' : Tables), handle.volume = .database (some t) → write t = .ok t' →
    view (handle.withTables t') = view handle

theorem volume_of_access {handle : Storage} {table : String} {t : Tables}
    (found : (access table).outcome handle = (.ok t, handle)) :
    handle.volume = .database (some t) := by
  obtain ⟨path, volume, patience, prepared⟩ := handle
  cases volume with
  | database tables =>
    cases tables with
    | none => cases found
    | some t' =>
      cases found
      rfl
  | _ => cases found

theorem fixes_write (table : String) {write : Tables → Except TableFailure Tables}
    (ignored : Ignores view write) :
    (do store (write (← access table)) : Step Storage Unit).Fixes view := by
  intro handle
  refine @Step.kept_bind _ _ _ handle (fun s => view s = view handle) _ _
    (looks_access table handle) rfl fun t found => ?_
  cases made : write t with
  | ok t' => exact ignored handle t t' (volume_of_access found) made
  | error failure => cases failure <;> rfl

theorem fixes_markEach {scope : Scope} (ignored : ∀ n, Ignores view fun t => t.markDeleted scope n)
    (numbers : List Json) : (markEach scope numbers).Fixes view := by
  induction numbers with
  | nil => exact fixes_pure ()
  | cons n rest ih =>
    have split : markEach scope (n :: rest) = ((do
        store ((← access "subject_versions").markDeleted scope n)) : Step Storage Unit) >>=
          fun _ => markEach scope rest := (bind_assoc _ _ _).symm
    rw [split]
    exact (fixes_write "subject_versions" (ignored n)).bind fun _ => ih

theorem fixes_markDeleted {scope : Scope}
    (ignored : ∀ n, Ignores view fun t => t.markDeleted scope n) (numbers : List Json) :
    (markDeleted scope numbers).Fixes view := by
  unfold markDeleted
  split
  · exact fixes_pure ()
  · exact (fixes_of_looks (looks_access _)).discard.bind fun _ => fixes_markEach ignored numbers

end Storage

/-! ## Stores with a file behind them -/

section

variable {σ τ α : Type} {view : Storage → τ}

namespace Backed

/-- What can be seen of the file behind a store, if there is one. -/
def seen (view : Storage → τ) (b : Backed σ) : Option τ := b.storage.map view

theorem fixes_inMemory : (inMemory : Step (Backed σ) σ).Fixes (seen view) := fun _ => rfl

theorem fixes_remember (memory : σ) : (remember memory).Fixes (seen view) := fun _ => rfl

theorem fixes_persist {write : Step Storage Unit} (fixes : write.Fixes view) :
    (persist write : Step (Backed σ) Unit).Fixes (seen view) := by
  intro b
  obtain ⟨memory, file⟩ := b
  cases file with
  | none => rfl
  | some handle => exact congrArg some (fixes handle)

/-- A change that is written before it is made. -/
theorem fixes_change {write : Step Storage Unit} (fixes : write.Fixes view) (after : σ) (a : α) :
    (change write after a).Fixes (seen view) :=
  (fixes_persist fixes).bind fun _ => (fixes_remember after).bind fun _ => fixes_pure a

end Backed

open Backed (seen fixes_inMemory fixes_change)
open Storage (Ignores)

theorem Schemas.fixes_put (ignored : ∀ draft, Ignores view fun t => t.insertSchema draft)
    (canonical raw fingerprint : Json) :
    (Schemas.put canonical raw fingerprint).Fixes (seen view) := by
  have settled : ∀ {α : Type} (computed : Except Failure α),
      (Schemas.settle computed).Fixes (seen view) := by
    intro α computed
    cases computed with
    | ok a => exact fixes_pure a
    | error failure => exact fixes_throw failure
  refine (settled _).bind fun fingerprint => fixes_inMemory.bind fun s => (settled _).bind ?_
  intro found
  cases found with
  | some existing => exact fixes_pure _
  | none => exact fixes_change (Storage.fixes_write _ (ignored _)) _ _

namespace Versions

variable {scope : Scope}

theorem fixes_append
    (ignored : ∀ draft : VersionDraft, draft.scope = scope →
      Ignores view fun t => t.insertVersion draft)
    (schemaId : Json) : (append scope schemaId).Fixes (seen view) := by
  refine fixes_inMemory.bind fun v => ?_
  cases v.holding? scope schemaId with
  | some existing => exact fixes_refuse _
  | none => exact fixes_change (Storage.fixes_write _ (ignored _ rfl)) _ _

variable (ignored : ∀ n, Ignores view fun t => t.markDeleted scope n)
include ignored

theorem fixes_delete (selector : Selector) : (delete scope selector).Fixes (seen view) := by
  refine fixes_inMemory.bind fun v => ?_
  dsimp only
  cases v.get scope selector with
  | error failure => exact fixes_throw failure
  | ok r => exact fixes_change (Storage.fixes_markDeleted ignored _) _ _

theorem fixes_deleteAll : (deleteAll scope).Fixes (seen view) := by
  refine fixes_inMemory.bind fun v => ?_
  cases (v.history scope).map (·.number) with
  | nil => exact fixes_pure []
  | cons n rest => exact fixes_change (Storage.fixes_markDeleted ignored _) _ _

end Versions

namespace Config

theorem fixes_settle (computed : Except Failure α) : (settle computed).Fixes (seen view) := by
  cases computed with
  | ok a => exact fixes_pure a
  | error failure => exact fixes_throw failure

theorem fixes_setGlobal
    (ignored : ∀ mode, Ignores view fun t => t.upsertConfig (.str globalKey) mode)
    (argument : Argument Compatibility.Mode) : (setGlobal argument).Fixes (seen view) :=
  (fixes_settle _).bind fun _ => fixes_inMemory.bind fun _ =>
    fixes_change (Storage.fixes_write _ (ignored _)) _ _

theorem fixes_setOverride {scope : Scope}
    (ignored : ∀ mode, Ignores view fun t => t.upsertConfig (.str scope.render) mode)
    (argument : Argument Compatibility.Mode) : (setOverride scope argument).Fixes (seen view) :=
  (fixes_settle _).bind fun _ => fixes_inMemory.bind fun _ =>
    fixes_change (Storage.fixes_write _ (ignored _)) _ _

theorem fixes_clearOverride {scope : Scope}
    (ignored : Ignores view fun t => t.deleteConfig (.str scope.render)) :
    (clearOverride scope).Fixes (seen view) := by
  refine fixes_inMemory.bind fun c => ?_
  split
  · exact (Backed.fixes_persist (Storage.fixes_write _ ignored)).bind fun _ =>
      Backed.fixes_remember _
  · exact fixes_pure ()

end Config

end

/-! ## Registries -/

/-- The changes of tables that an operation can make. -/
inductive Operation.Writes : Operation → (Tables → Except TableFailure Tables) → Prop where
  | store {subject schema : Json} {part : Argument Part} (draft : SchemaDraft) :
      Writes (.register subject part schema) fun t => t.insertSchema draft
  | append {subject schema : Json} {part : Argument Part} {draft : VersionDraft}
      (placed : Registry.scopeOf subject part = .ok draft.scope) :
      Writes (.register subject part schema) fun t => t.insertVersion draft
  | delete {subject version : Json} {part : Argument Part} {scope : Scope}
      (placed : Registry.scopeOf subject part = .ok scope) (number : Json) :
      Writes (.deleteVersion subject part version) fun t => t.markDeleted scope number
  | deleteAll {subject : Json} {part : Argument Part} {scope : Scope}
      (placed : Registry.scopeOf subject part = .ok scope) (number : Json) :
      Writes (.deleteSubject subject part) fun t => t.markDeleted scope number
  | setGlobal {argument : Argument Compatibility.Mode} (mode : Json) :
      Writes (.setGlobalMode argument) fun t => t.upsertConfig (.str globalKey) mode
  | setOverride {subject : Json} {part : Argument Part} {argument : Argument Compatibility.Mode}
      {scope : Scope} (placed : Registry.scopeOf subject part = .ok scope) (mode : Json) :
      Writes (.setModeOf subject part argument) fun t => t.upsertConfig (.str scope.render) mode
  | clearOverride {subject : Json} {part : Argument Part} {scope : Scope}
      (placed : Registry.scopeOf subject part = .ok scope) :
      Writes (.clearModeOf subject part) fun t => t.deleteConfig (.str scope.render)

namespace Registry

variable {τ : Type} {view : Storage → τ}

/-- What can be seen of the file of a registry, if there is one. -/
def seen (view : Storage → τ) (r : Registry) : Option τ := r.storage.map view

section

variable {α β : Type}

theorem fixes_onSchemas {step : Step (Backed Schemas) α} (fixes : step.Fixes (Backed.seen view)) :
    (onSchemas step).Fixes (seen view) := fun r => fixes ⟨r.schemas, r.storage⟩

theorem fixes_onVersions {step : Step (Backed Versions) α}
    (fixes : step.Fixes (Backed.seen view)) : (onVersions step).Fixes (seen view) :=
  fun r => fixes ⟨r.versions, r.storage⟩

theorem fixes_onConfig {step : Step (Backed Config) α} (fixes : step.Fixes (Backed.seen view)) :
    (onConfig step).Fixes (seen view) := fun r => fixes ⟨r.config, r.storage⟩

theorem fixes_get : (get : Step Registry Registry).Fixes (seen view) := fun _ => rfl

/-- What comes after a computation that succeeds may rely on its result. -/
theorem fixes_settle_bind {computed : Except Failure α} {f : α → Step Registry β}
    (next : ∀ a, computed = .ok a → (f a).Fixes (seen view)) :
    (settle computed >>= f).Fixes (seen view) := by
  cases computed with
  | ok a => exact next a rfl
  | error failure => exact fun _ => rfl

end

theorem fixes_enroll {scope : Scope}
    (stored : ∀ draft, Storage.Ignores view fun t => t.insertSchema draft)
    (appended : ∀ draft : VersionDraft, draft.scope = scope →
      Storage.Ignores view fun t => t.insertVersion draft)
    (candidate : Schema.Canonical) : (enroll scope candidate).Fixes (seen view) := by
  refine (fixes_onSchemas (Schemas.fixes_put stored _ _ _)).bind fun id => ?_
  refine Step.Fixes.bind (.tryCatch ?_ fun failure => ?_) fun _ => fixes_pure id
  · exact (fixes_onVersions (Versions.fixes_append appended _)).discard
  · split
    · exact fixes_pure ()
    · exact fixes_throw _

theorem fixes_register {subject schema : Json} {part : Argument Part}
    (ignored : ∀ write, (Operation.register subject part schema).Writes write →
      Storage.Ignores view write) :
    (register subject part schema).Fixes (seen view) := by
  refine fixes_settle_bind fun scope placed => fixes_settle_bind fun candidate _ => ?_
  have enrolled : (enroll scope candidate).Fixes (seen view) := by
    refine fixes_enroll (fun draft => ignored _ (.store draft)) (fun draft same => ?_) candidate
    exact ignored _ (.append (same ▸ placed))
  refine fixes_get.bind fun r => ?_
  cases r.live? scope candidate.fingerprint with
  | some info => exact fixes_pure _
  | none =>
    refine fixes_settle_bind fun found _ => ?_
    dsimp only
    split
    · exact (fixes_refuse _).bind fun _ => enrolled
    · exact enrolled

/-- An operation fixes what can be seen of a file as long as each of its writes does. -/
theorem fixes_perform_of_writes {op : Operation}
    (ignored : ∀ write, op.Writes write → Storage.Ignores view write) :
    (perform op).Fixes (seen view) := by
  cases op with
  | register subject part schema => exact (fixes_register ignored).map _
  | check subject part schema =>
    exact (fixes_of_looks fun r => looks_check subject part r schema).map _
  | test subject part schema version =>
    exact (fixes_of_looks fun r => looks_test subject part r schema version).map _
  | subjects => exact (fixes_get.map _).map _
  | versionNumbers subject part =>
    exact (fixes_of_looks fun r => looks_versionNumbers subject part r).map _
  | schemaById id => exact (fixes_of_looks fun r => looks_schemaById r id).map _
  | schemaAt subject part version =>
    exact (fixes_of_looks fun r => looks_schemaAt subject part r version).map _
  | deleteVersion subject part version =>
    refine Step.Fixes.map (fixes_settle_bind fun scope placed => fixes_settle_bind fun _ _ => ?_) _
    exact fixes_onVersions (Versions.fixes_delete (fun n => ignored _ (.delete placed n)) _)
  | deleteSubject subject part =>
    refine Step.Fixes.map (fixes_settle_bind fun scope placed => ?_) _
    exact fixes_onVersions (Versions.fixes_deleteAll fun n => ignored _ (.deleteAll placed n))
  | globalMode => exact (fixes_get.map _).map _
  | setGlobalMode argument =>
    have set := Config.fixes_setGlobal (fun mode => ignored _ (.setGlobal mode)) argument
    exact (fixes_onConfig set).map _
  | modeOf subject part => exact (fixes_of_looks fun r => looks_modeOf subject part r).map _
  | setModeOf subject part argument =>
    refine Step.Fixes.map (fixes_settle_bind fun scope placed => fixes_onConfig ?_) _
    exact Config.fixes_setOverride (fun mode => ignored _ (.setOverride placed mode)) argument
  | clearModeOf subject part =>
    refine Step.Fixes.map (fixes_settle_bind fun scope placed => ?_) _
    have cleared := Config.fixes_clearOverride (ignored _ (.clearOverride placed))
    exact (fixes_onConfig cleared).bind fun _ => fixes_get.map _

end Registry

/-! ## Where the file is -/

/-- Where a handle is, and how long its connections wait. -/
def Storage.anchor (handle : Storage) : String × Nat := (handle.path, handle.patience)

theorem Storage.ignores_anchor (write : Tables → Except TableFailure Tables) :
    Ignores anchor write := fun _ _ _ _ _ => rfl

namespace Registry

/-- Where the file of a registry is, if it has one. -/
def anchor (r : Registry) : Option (String × Nat) := r.storage.map Storage.anchor

/-- No operation moves a registry to another file. -/
theorem fixes_perform (op : Operation) : (perform op).Fixes anchor :=
  fixes_perform_of_writes fun write _ => Storage.ignores_anchor write

end Registry

end AvroRegistry
