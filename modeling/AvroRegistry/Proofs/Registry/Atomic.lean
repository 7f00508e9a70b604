import AvroRegistry.Proofs.Registry.Changes
import AvroRegistry.Proofs.Registry.Opening

/-!
# Steps that fail leave everything as it was

A step is atomic at a state if it leaves the state as it was whenever it fails. The stores work out
what they need first, then make one write to the file and remember what was written last, so an
operation of a store is atomic as soon as its write is, whatever stands in memory, in the tables or
in place of the file.

Every write but one touches one row and is atomic for that reason. Deleting all versions of a scope
marks their rows one by one; it is stopped half-way by a number that is no word. An index that was
read from a file, or has written all that it holds to one, has no such number.
-/

namespace AvroRegistry

namespace Step

variable {σ α β : Type}

/-- A step that fails from a state leaves the state as it was. -/
def Atomic (step : Step σ α) (s : σ) : Prop :=
  ∀ failure t, step.outcome s = (.error failure, t) → t = s

/-- A step only looks at a state: it ends in the same one. -/
def Looks (step : Step σ α) (s : σ) : Prop := (step.outcome s).2 = s

variable {s t : σ}

theorem Looks.atomic {step : Step σ α} (looks : step.Looks s) : step.Atomic s := by
  intro failure t failed
  unfold Looks at looks
  rw [failed] at looks
  exact looks

theorem Atomic.of_ok {step : Step σ α} {a : α} (ran : step.outcome s = (.ok a, t)) :
    step.Atomic s := by
  intro failure t' failed
  rw [ran] at failed
  cases failed

theorem Atomic.of_error {step : Step σ α} {failure : Failure}
    (ran : step.outcome s = (.error failure, s)) : step.Atomic s := by
  intro failure' t' failed
  rw [ran] at failed
  cases failed
  rfl

theorem Atomic.congr {step other : Step σ α} (same : step.outcome s = other.outcome s)
    (atomic : other.Atomic s) : step.Atomic s :=
  fun failure t failed => atomic failure t (same ▸ failed)

theorem atomic_pure (a : α) (s : σ) : (pure a : Step σ α).Atomic s := .of_ok (outcome_pure a s)

theorem atomic_refuse (f : Fault) (s : σ) : (refuse f : Step σ α).Atomic s :=
  .of_error (outcome_refuse f s)

/-- What comes after a part that changes nothing decides. -/
theorem Atomic.bind_looks {x : Step σ α} {f : α → Step σ β}
    (looks : x.Looks s) (next : ∀ a, x.outcome s = (.ok a, s) → (f a).Atomic s) :
    (x >>= f).Atomic s := by
  unfold Looks at looks
  cases first : x.outcome s with
  | mk result t =>
    rw [first] at looks
    cases looks
    cases result with
    | ok a => exact .congr (bind_of_ok first f) (next a first)
    | error failure => exact .of_error (bind_of_error first f)

/-- A step stays atomic when nothing that comes after it fails. -/
theorem Atomic.bind_ok {x : Step σ α} {f : α → Step σ β} (atomic : x.Atomic s)
    (next : ∀ a t, ∃ b t', (f a).outcome t = (.ok b, t')) : (x >>= f).Atomic s := by
  cases first : x.outcome s with
  | mk result t =>
    cases result with
    | ok a =>
      obtain ⟨b, t', ran⟩ := next a t
      exact .of_ok ((bind_of_ok first f).trans ran)
    | error failure =>
      rw [atomic failure t first] at first
      exact .of_error (bind_of_error first f)

/-- What holds of a state that a first part only looks at holds afterwards if the rest keeps it. -/
theorem kept_bind {kept : σ → Prop} {x : Step σ α} {f : α → Step σ β} (looks : x.Looks s)
    (before : kept s) (next : ∀ a, x.outcome s = (.ok a, s) → kept ((f a).outcome s).2) :
    kept ((x >>= f).outcome s).2 := by
  unfold Looks at looks
  cases first : x.outcome s with
  | mk result t =>
    rw [first] at looks
    cases looks
    cases result with
    | ok a =>
      rw [bind_of_ok first f]
      exact next a first
    | error failure =>
      rw [bind_of_error first f]
      exact before

theorem Looks.bind {x : Step σ α} {f : α → Step σ β} (looks : x.Looks s)
    (next : ∀ a, x.outcome s = (.ok a, s) → (f a).Looks s) : (x >>= f).Looks s :=
  @kept_bind _ _ _ s (· = s) x f looks rfl next

theorem Looks.map {x : Step σ α} (looks : x.Looks s) (f : α → β) :
    Looks (do return f (← x)) s := looks.bind fun _ _ => rfl

theorem Atomic.map {x : Step σ α} (atomic : x.Atomic s) (f : α → β) :
    Atomic (do return f (← x)) s :=
  atomic.bind_ok fun a t => ⟨f a, t, outcome_pure (f a) t⟩

end Step

/-! ## Writes -/

namespace Storage

/-- Whatever stands in place of the file, looking for a table changes nothing. -/
theorem looks_access (table : String) (handle : Storage) : (access table).Looks handle := by
  obtain ⟨path, volume, patience, prepared⟩ := handle
  cases volume with
  | database tables => cases tables <;> rfl
  | _ => rfl

theorem atomic_store (result : Except TableFailure Tables) (handle : Storage) :
    (store result).Atomic handle := by
  cases result with
  | ok t => exact .of_ok (store_outcome handle t)
  | error failure => cases failure <;> exact .of_error rfl

/-- An operation on the tables is written as a whole or not at all. -/
theorem atomic_write (table : String) (write : Tables → Except TableFailure Tables)
    (handle : Storage) : Step.Atomic (do store (write (← access table))) handle :=
  .bind_looks (looks_access table handle) fun t _ => atomic_store (write t) handle

/-- Marking numbers goes through once the table is there, if all of them are words. -/
theorem markEach_ok (scope : Scope) (numbers : List Int)
    (words : ∀ n ∈ numbers, isWord n = true) :
    ∀ {handle : Storage} {t : Tables}, handle.volume = .database (some t) →
      ∃ t', (markEach scope (numbers.map .int)).outcome handle =
        (.ok (), handle.withTables t') := by
  induction numbers with
  | nil =>
    intro handle t ready
    refine ⟨t, ?_⟩
    cases handle
    cases ready
    rfl
  | cons n rest ih =>
    intro handle t ready
    have marked : t.markDeleted scope (.int n) =
        .ok { t with versions := Tables.markRow scope (.integer n) t.versions } := by
      unfold Tables.markDeleted
      rw [Tables.bind_int 2 (words n List.mem_cons_self)]
      rfl
    have first := @write_ok handle t _ ready "subject_versions"
      (fun t => t.markDeleted scope (.int n)) marked
    have again : ∀ t : Tables, (handle.withTables t).volume = .database (some t) := fun _ => rfl
    obtain ⟨t', others⟩ := ih (fun m mem => words m (List.mem_cons_of_mem n mem)) (again _)
    refine ⟨t', ?_⟩
    have split : markEach scope ((n :: rest).map .int) = ((do
        store ((← access "subject_versions").markDeleted scope (.int n)) : Step Storage Unit) >>=
          fun _ => markEach scope (rest.map .int)) := (bind_assoc _ _ _).symm
    rw [split, Step.bind_of_ok first, others]
    rfl

/-- Marking numbers is atomic if all of them are words, or if there is only one. -/
theorem atomic_markDeleted (scope : Scope) {numbers : List Int}
    (words : numbers.length = 1 ∨ ∀ n ∈ numbers, isWord n = true) (handle : Storage) :
    (markDeleted scope (numbers.map .int)).Atomic handle := by
  cases numbers with
  | nil => exact .of_ok rfl
  | cons n rest =>
    show Step.Atomic ((discard (access "subject_versions") : Step Storage PUnit) >>= fun _ =>
      markEach scope ((n :: rest).map .int)) handle
    have looks : (discard (access "subject_versions") : Step Storage PUnit).Looks handle :=
      (looks_access "subject_versions" handle).bind fun _ _ => rfl
    refine .bind_looks looks fun _ there => ?_
    rcases words with single | words
    · rw [List.length_cons, Nat.add_eq_right, List.length_eq_zero_iff] at single
      cases single
      refine .bind_looks (looks_access "subject_versions" handle) fun t _ => ?_
      exact (atomic_store (t.markDeleted scope (.int n)) handle).bind_ok fun _ s => ⟨(), s, rfl⟩
    · obtain ⟨path, volume, patience, prepared⟩ := handle
      cases volume with
      | database tables =>
        cases tables with
        | none => cases there
        | some t =>
          have ready : (⟨path, .database (some t), patience, prepared⟩ : Storage).volume =
            .database (some t) := rfl
          obtain ⟨t', ran⟩ := markEach_ok scope (n :: rest) words ready
          exact .of_ok ran
      | _ => cases there

end Storage

namespace Backed

variable {σ α : Type}

/-- A change is atomic if its write is. -/
theorem atomic_change {write : Step Storage Unit} (after : σ) (a : α) {b : Backed σ}
    (atomic : ∀ handle, b.storage = some handle → write.Atomic handle) :
    (change write after a).Atomic b := by
  have persisted : (persist write : Step (Backed σ) Unit).Atomic b := by
    obtain ⟨memory, file⟩ := b
    cases file with
    | none => exact .of_ok rfl
    | some handle =>
      have ran : (persist write : Step (Backed σ) Unit).outcome ⟨memory, some handle⟩ =
        ((write.outcome handle).1, ⟨memory, some (write.outcome handle).2⟩) := rfl
      intro failure b' failed
      rw [ran] at failed
      obtain ⟨refused, rfl⟩ := Prod.mk.inj failed
      have same := atomic handle rfl failure (write.outcome handle).2 (Prod.ext refused rfl)
      exact congrArg (fun handle => (⟨memory, some handle⟩ : Backed σ)) same
  exact persisted.bind_ok fun _ t => ⟨a, { t with memory := after }, rfl⟩

/-- Whatever comes of a change, what holds before it holds afterwards, if it holds of what is to be
remembered once that is written. -/
theorem kept_change {kept : Backed σ → Prop} {write : Step Storage Unit} {after : σ} (a : α)
    {memory : σ} {file : Option Storage}
    (before : ∀ file', file'.isSome = file.isSome → kept ⟨memory, file'⟩)
    (made : ∀ file', file'.isSome = file.isSome →
      (∀ handle, file = some handle → ∃ handle', write.outcome handle = (.ok (), handle')) →
      kept ⟨after, file'⟩) :
    kept ((change write after a).outcome ⟨memory, file⟩).2 := by
  cases file with
  | none => exact made none rfl nofun
  | some handle =>
    have ran : (persist write : Step (Backed σ) Unit).outcome ⟨memory, some handle⟩ =
      ((write.outcome handle).1, ⟨memory, some (write.outcome handle).2⟩) := rfl
    unfold change
    cases written : write.outcome handle with
    | mk result handle' =>
      rw [written] at ran
      cases result with
      | ok =>
        rw [Step.bind_of_ok ran]
        refine made (some handle') rfl fun other same => ?_
        cases same
        exact ⟨handle', written⟩
      | error failure =>
        rw [Step.bind_of_error ran]
        exact before (some handle') rfl

end Backed

/-! ## Operations of the stores -/

/-- Storing a schema, whatever its canonical text, raw text and fingerprint are, is atomic. -/
theorem Schemas.atomic_put (canonical raw fingerprint : Json) (b : Backed Schemas) :
    (put canonical raw fingerprint).Atomic b := by
  have settled : ∀ {α : Type} (computed : Except Failure α), (settle computed).Looks b :=
    fun computed => by cases computed <;> rfl
  unfold put
  refine .bind_looks (settled _) fun address _ => ?_
  refine .bind_looks rfl fun s _ => ?_
  refine .bind_looks (settled _) fun found _ => ?_
  cases found with
  | some existing => exact Step.atomic_pure existing.id b
  | none => exact Backed.atomic_change _ _ fun handle _ => Storage.atomic_write "schemas" _ handle

/-- Appending a version, whatever the id of its schema is, is atomic. -/
theorem Versions.atomic_append (scope : Scope) (schemaId : Json) (b : Backed Versions) :
    (append scope schemaId).Atomic b := by
  refine .bind_looks rfl fun v _ => ?_
  cases v.holding? scope schemaId with
  | some existing => exact Step.atomic_refuse _ b
  | none =>
    exact Backed.atomic_change _ _ fun handle _ => Storage.atomic_write "subject_versions" _ handle

/-- Deleting one version, however it is looked up, is atomic. -/
theorem Versions.atomic_deleteFound (scope : Scope) (look : Versions → Except Failure Version)
    (b : Backed Versions) : (deleteFound scope look).Atomic b := by
  refine .bind_looks rfl fun v _ => ?_
  cases look v with
  | error failure => exact .of_error (Step.outcome_throw failure b)
  | ok r =>
    exact Backed.atomic_change _ _ fun handle _ =>
      Storage.atomic_markDeleted scope (.inl (rfl : [r.number].length = 1)) handle

/-- An index that has a file knows no number that the file could not hold. -/
def Versions.Fitting (b : Backed Versions) : Prop :=
  b.storage.isSome = true → ∀ r ∈ b.memory.rows, isWord r.number = true

/-- Deleting all versions of a scope is atomic where the file can hold the numbers in memory. -/
theorem Versions.atomic_deleteAll (scope : Scope) {b : Backed Versions} (fitting : Fitting b) :
    (deleteAll scope).Atomic b := by
  refine .bind_looks rfl fun v here => ?_
  cases here
  cases live : (b.memory.history scope).map (·.number) with
  | nil => exact Step.atomic_pure [] b
  | cons n rest =>
    refine Backed.atomic_change _ _ fun handle backed => ?_
    have words : ∀ m ∈ n :: rest, isWord m = true := by
      intro m mem
      rw [← live] at mem
      obtain ⟨r, known, rfl⟩ := List.mem_map.1 mem
      exact fitting (Option.isSome_of_eq_some backed) r (mem_history.1 known).1
    exact Storage.atomic_markDeleted scope (.inr words) handle

namespace Config

variable (b : Backed Config) (argument : Argument Compatibility.Mode)

theorem looks_settle {α : Type} (computed : Except Failure α) : (settle computed).Looks b := by
  cases computed <;> rfl

/-- Setting the global mode is atomic. -/
theorem atomic_setGlobal : (setGlobal argument).Atomic b :=
  .bind_looks (looks_settle b _) fun _ _ => .bind_looks rfl fun _ _ =>
    Backed.atomic_change _ _ fun handle _ => Storage.atomic_write "compat_config" _ handle

/-- Setting the mode of a scope is atomic. -/
theorem atomic_setOverride (scope : Scope) : (setOverride scope argument).Atomic b :=
  .bind_looks (looks_settle b _) fun _ _ => .bind_looks rfl fun _ _ =>
    Backed.atomic_change _ _ fun handle _ => Storage.atomic_write "compat_config" _ handle

/-- Removing the mode of a scope is atomic. -/
theorem atomic_clearOverride (scope : Scope) : (clearOverride scope).Atomic b := by
  refine .bind_looks rfl fun c _ => ?_
  split
  · have same : (do
        Backed.persist (Storage.deleteConfig (.str scope.render))
        Backed.remember (c.without scope) : Step (Backed Config) Unit) =
      Backed.change (Storage.deleteConfig (.str scope.render)) (c.without scope) () := rfl
    rw [same]
    exact Backed.atomic_change _ _ fun handle _ => Storage.atomic_write "compat_config" _ handle
  · exact Step.atomic_pure () b

end Config

namespace Versions

/-! ## Indices that can come about -/

/-- The integers that the tables of a file hold as version numbers are words, as those of every cell
are. -/
def Worded (handle : Storage) : Prop :=
  ∀ t, handle.volume = .database (some t) →
    ∀ row ∈ t.versions, ∀ n, row.number = .integer n → isWord n = true

/-- The indices that come about by reading a file and by the operations of the store, whatever else
is done to the file meanwhile. -/
inductive Attained : Backed Versions → Prop where
  | memory : Attained ⟨{}, none⟩
  | recovered {handle opened : Storage} {v : Versions} (words : Worded handle)
      (read : recover.outcome handle = (.ok v, opened)) : Attained ⟨v, some opened⟩
  | append {b : Backed Versions} (scope : Scope) (schemaId : Json) (before : Attained b) :
      Attained ((Versions.append scope schemaId).outcome b).2
  | deleteFound {b : Backed Versions} (scope : Scope) (look : Versions → Except Failure Version)
      (before : Attained b) : Attained ((Versions.deleteFound scope look).outcome b).2
  | deleteAll {b : Backed Versions} (scope : Scope) (before : Attained b) :
      Attained ((Versions.deleteAll scope).outcome b).2
  | elsewhere {v : Versions} {handle : Storage} (other : Storage)
      (before : Attained ⟨v, some handle⟩) : Attained ⟨v, some other⟩

/-- Versions that are read back have the numbers of their rows. -/
theorem recoverFrom_words (rows : List VersionRow)
    (words : ∀ row ∈ rows, ∀ n, row.number = .integer n → isWord n = true) :
    ∀ {v w : Versions}, recoverFrom v rows = .ok w → (∀ r ∈ v.rows, isWord r.number = true) →
      ∀ r ∈ w.rows, isWord r.number = true := by
  induction rows with
  | nil =>
    intro v w read before
    cases read
    exact before
  | cons row rest ih =>
    intro v w read before
    unfold recoverFrom at read
    cases number : numberAbove (v.maxNumber row.scope) row with
    | error f =>
      rw [number] at read
      cases read
    | ok n =>
      rw [number] at read
      have integer : row.number = .integer n := by
        unfold numberAbove at number
        split at number
        · next m same =>
          split at number
          · cases number
          · cases number
            exact same
        · split at number <;> cases number
        · cases number
      refine ih (fun r mem => words r (List.mem_cons_of_mem row mem)) read fun r mem => ?_
      rcases List.mem_append.1 mem with old | new
      · exact before r old
      · rw [List.mem_singleton.1 new]
        exact words row List.mem_cons_self n integer

/-- Making sure of the tables adds no version. -/
theorem Worded.prepared {handle handle' : Storage} (words : Worded handle)
    (ran : Storage.prepare.outcome handle = (.ok (), handle')) : Worded handle' := by
  obtain ⟨path, volume, patience, prepared⟩ := handle
  cases prepared with
  | true =>
    cases ran
    exact words
  | false =>
    cases volume with
    | database tables =>
      cases ran
      intro t same
      cases same
      cases tables with
      | none => exact nofun
      | some t => exact words t rfl
    | fleeting =>
      cases ran
      exact nofun
    | _ => cases ran

/-- An index that is read from a file is recovered from the versions in the tables of the file. -/
theorem recover_eq_ok {handle opened : Storage} {v : Versions}
    (read : recover.outcome handle = (.ok v, opened)) :
    ∃ t, Storage.prepare.outcome handle = (.ok (), opened) ∧
      opened.volume = .database (some t) ∧ recoverFrom {} t.versionsInOrder = .ok v := by
  unfold recover at read
  cases first : Storage.prepare.outcome handle with
  | mk result handle' =>
    cases result with
    | error failure =>
      rw [Step.bind_of_error first] at read
      cases read
    | ok =>
      rw [Step.bind_of_ok first] at read
      obtain ⟨path, volume, patience, prepared⟩ := handle'
      cases volume with
      | database tables =>
        cases tables with
        | none => cases read
        | some t =>
          have loaded : Storage.loadVersions.outcome
              ⟨path, .database (some t), patience, prepared⟩ =
            (.ok t.versionsInOrder, ⟨path, .database (some t), patience, prepared⟩) := rfl
          rw [Step.bind_of_ok loaded] at read
          cases rows : recoverFrom {} t.versionsInOrder with
          | error failure =>
            rw [rows] at read
            cases read
          | ok w =>
            rw [rows] at read
            cases read
            exact ⟨t, rfl, rfl, rows⟩
      | _ => cases read

/-- An index that is read from a file has no number that is no word. -/
theorem recover_words {handle opened : Storage} {v : Versions} (words : Worded handle)
    (read : recover.outcome handle = (.ok v, opened)) : ∀ r ∈ v.rows, isWord r.number = true := by
  obtain ⟨t, ready, held, rows⟩ := recover_eq_ok read
  have stored := words.prepared ready t held
  exact recoverFrom_words _ (fun row mem => stored row ((List.mergeSort_perm _ _).subset mem)) rows
    nofun

/-- A version that is written has a word for its number. -/
theorem isWord_of_insertVersion {draft : VersionDraft} {n : Int} {handle handle' : Storage}
    (named : draft.number = .int n)
    (made : (Storage.insertVersion draft).outcome handle = (.ok (), handle')) :
    isWord n = true := by
  by_contra long
  rw [Bool.not_eq_true] at long
  obtain ⟨path, volume, patience, prepared⟩ := handle
  cases volume with
  | database tables =>
    cases tables with
    | none => cases made
    | some t =>
      have ready : (⟨path, .database (some t), patience, prepared⟩ : Storage).volume =
        .database (some t) := rfl
      have refused := @Storage.write_breakdown _ t ready "subject_versions"
        (fun t => t.insertVersion draft) _ (Tables.insertVersion_overflow named long)
      cases made.symm.trans refused
  | _ => cases made

/-- Marking versions leaves their numbers as they are. -/
theorem Fitting.mark {v : Versions} {file file' : Option Storage} (fitting : Fitting ⟨v, file⟩)
    (files : file'.isSome = file.isSome) (scope : Scope) (numbers : List Int) :
    Fitting ⟨v.mark scope numbers, file'⟩ := by
  intro backed r mem
  obtain ⟨old, known, rfl⟩ := List.mem_map.1 mem
  exact (marked_number numbers old).symm ▸ fitting (files ▸ backed) old known

/-- Every index that comes about could write all its numbers to its file. -/
theorem Attained.fitting {b : Backed Versions} (attained : Attained b) : Fitting b := by
  induction attained with
  | memory => exact nofun
  | recovered words read => exact fun _ => recover_words words read
  | @append b scope schemaId before ih =>
    obtain ⟨v, file⟩ := b
    refine Step.kept_bind rfl ih fun _ here => ?_
    cases here
    cases v.holding? scope schemaId with
    | some existing => exact ih
    | none =>
      refine Backed.kept_change _ (fun file' files backed => ih (files ▸ backed)) ?_
      intro file' files written backed r mem
      obtain ⟨handle, same⟩ := Option.isSome_iff_exists.1 (files ▸ backed)
      rcases List.mem_append.1 mem with old | new
      · exact ih (files ▸ backed) r old
      · obtain ⟨handle', made⟩ := written handle same
        rw [List.mem_singleton.1 new]
        exact isWord_of_insertVersion rfl made
  | @deleteFound b scope look before ih =>
    obtain ⟨v, file⟩ := b
    refine Step.kept_bind rfl ih fun _ here => ?_
    cases here
    cases look v with
    | error failure => exact ih
    | ok r =>
      exact Backed.kept_change _ (fun file' files backed => ih (files ▸ backed))
        fun file' files _ => ih.mark files scope [r.number]
  | @deleteAll b scope before ih =>
    obtain ⟨v, file⟩ := b
    refine Step.kept_bind rfl ih fun _ here => ?_
    cases here
    cases (v.history scope).map (·.number) with
    | nil => exact ih
    | cons n rest =>
      exact Backed.kept_change _ (fun file' files backed => ih (files ▸ backed))
        fun file' files _ => ih.mark files scope (n :: rest)
  | elsewhere other before ih => exact fun _ => ih rfl

end Versions

end AvroRegistry
