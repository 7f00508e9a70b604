import AvroRegistry.Proofs.Steps
import AvroRegistry.Proofs.Storage.Tables

/-!
# Writing to a file and reading it back

A handle whose file holds what a registry knows, and what becomes of it. A write that the tables
accept leaves a handle whose file holds what is known afterwards; one that they refuse leaves the
handle as it was. A new handle on the same file reads back stores that say the same as those that
were written.
-/

namespace AvroRegistry

open Compatibility (Mode)
open Versions (row marked)

namespace Storage

/-- A handle has made sure that the tables are there, and they hold what a registry knows. -/
structure Holds (default : Mode) (handle : Storage) (s : Schemas) (v : Versions) (c : Config) :
    Prop where
  prepared : handle.prepared = true
  tables : ∃ t, handle.volume = .database (some t) ∧ t.Holds default s v c

/-- A handle on a file with other tables. -/
def withTables (handle : Storage) (t : Tables) : Storage :=
  { handle with volume := .database (some t) }

section

variable {handle : Storage} {t t' : Tables}

theorem access_outcome (ready : handle.volume = .database (some t)) (table : String) :
    (access table).outcome handle = (.ok t, handle) := by
  cases handle
  cases ready
  rfl

theorem store_outcome (handle : Storage) (t : Tables) :
    (store (.ok t)).outcome handle = (.ok (), handle.withTables t) := rfl

/-- A write that the tables accept is made. -/
theorem write_ok (ready : handle.volume = .database (some t)) (table : String)
    {write : Tables → Except TableFailure Tables} (made : write t = .ok t') :
    (do store (write (← access table)) : Step Storage Unit).outcome handle =
      (.ok (), handle.withTables t') := by
  rw [Step.bind_of_ok (access_outcome ready table), made, store_outcome]

/-- A write on which the tables break down changes nothing. -/
theorem write_breakdown (ready : handle.volume = .database (some t)) (table : String)
    {write : Tables → Except TableFailure Tables} {b : Breakdown}
    (broke : write t = .error (.breakdown b)) :
    (do store (write (← access table)) : Step Storage Unit).outcome handle =
      (.error (.breakdown b), handle) := by
  rw [Step.bind_of_ok (access_outcome ready table), broke]
  rfl

/-- Marking numbers one after the other marks the versions that have one of them. -/
theorem markEach_outcome (scope : Scope) (numbers : List Int)
    (words : ∀ n ∈ numbers, isWord n = true) :
    ∀ {handle : Storage} {t : Tables} {rows : List Version},
      handle.volume = .database (some t) → t.versions = rows.map row →
      (markEach scope (numbers.map .int)).outcome handle =
        (.ok (), handle.withTables
          { t with versions := (rows.map (marked scope numbers)).map row }) := by
  induction numbers with
  | nil =>
    intro handle t rows ready written
    have same : rows.map (marked scope []) = rows :=
      List.map_id'' (fun r => Versions.marked_nil scope r) rows
    rw [same, ← written]
    cases handle
    cases ready
    rfl
  | cons n rest ih =>
    intro handle t rows ready written
    have first := Tables.markDeleted_eq written scope (words n List.mem_cons_self)
    have together : rows.map (marked scope (n :: rest)) =
        (rows.map (marked scope [n])).map (marked scope rest) := by
      rw [List.map_map]
      exact List.map_congr_left fun r _ => Versions.marked_cons scope n rest r
    rw [List.map_cons, markEach, Step.bind_of_ok (access_outcome ready "subject_versions"), first,
      Step.bind_of_ok (store_outcome handle _),
      ih (fun m mem => words m (List.mem_cons_of_mem _ mem)) rfl rfl, together]
    rfl

end

/-! ## The writes of a registry -/

section

variable {default : Mode} {handle : Storage} {s : Schemas} {v : Versions} {c : Config}

theorem Holds.addSchema (holds : handle.Holds default s v c) (sound : s.Sound)
    {canonical : String} (raw : String)
    (absent : s.withFingerprint? (.str (Schema.fingerprint canonical)) = none)
    (word : isWord (s.lastId + 1) = true) :
    ∃ handle', (insertSchema (s.next canonical raw).draft).outcome handle = (.ok (), handle') ∧
      handle'.Holds default (s.add (s.next canonical raw)) v c := by
  obtain ⟨t, ready, tables⟩ := holds.tables
  obtain ⟨t', made, after⟩ := tables.addSchema sound raw absent word
  exact ⟨_, write_ok ready "schemas" made, holds.prepared, t', rfl, after⟩

theorem Holds.addVersion (holds : handle.Holds default s v c) (sound : Versions.Sound s v)
    (scope : Scope) {e : StoredSchema} (stored : e ∈ s.entries)
    (word : isWord (v.maxNumber scope + 1) = true) :
    ∃ handle', (insertVersion (v.next scope e.id).draft).outcome handle = (.ok (), handle') ∧
      handle'.Holds default s (v.add (v.next scope e.id)) c := by
  obtain ⟨t, ready, tables⟩ := holds.tables
  obtain ⟨t', made, after⟩ := tables.addVersion sound scope stored word
  exact ⟨_, write_ok ready "subject_versions" made, holds.prepared, t', rfl, after⟩

/-- Versions of a scope can be marked, because their numbers are words. -/
theorem Holds.mark (holds : handle.Holds default s v c) (scope : Scope) {numbers : List Int}
    (some : numbers ≠ []) (listed : ∀ n ∈ numbers, ∃ r ∈ v.rows, r.number = n) :
    ∃ handle', (markDeleted scope (numbers.map .int)).outcome handle = (.ok (), handle') ∧
      handle'.Holds default s (v.mark scope numbers) c := by
  obtain ⟨t, ready, tables⟩ := holds.tables
  obtain ⟨rows, perm, written⟩ := tables.versions
  have words : ∀ n ∈ numbers, isWord n = true := by
    intro n mem
    obtain ⟨r, known, rfl⟩ := listed n mem
    exact tables.numbers r known
  have nonempty : (numbers.map Json.int).isEmpty = false := by
    cases numbers with
    | nil => exact absurd rfl some
    | cons n rest => rfl
  refine ⟨handle.withTables { t with versions := (rows.map (marked scope numbers)).map row }, ?_,
    holds.prepared, _, rfl, tables.schemas, tables.ids,
    ⟨rows.map (marked scope numbers), perm.map _, rfl⟩, ?_, tables.config⟩
  · unfold markDeleted
    rw [nonempty, if_neg Bool.false_ne_true]
    show (discard (access "subject_versions") >>= fun _ =>
      markEach scope (numbers.map .int)).outcome handle = _
    have looked : (discard (access "subject_versions") : Step Storage PUnit).outcome handle =
        (.ok ⟨⟩, handle) := by
      rw [Step.outcome_discard, access_outcome ready]
    rw [Step.bind_of_ok looked]
    exact markEach_outcome scope numbers words ready written
  · intro r mem
    rw [Versions.mark_rows] at mem
    obtain ⟨old, known, rfl⟩ := List.mem_map.1 mem
    rw [Versions.marked_number]
    exact tables.numbers old known

theorem Holds.setGlobal (holds : handle.Holds default s v c) (mode : Mode) :
    ∃ handle', (upsertConfig (.str globalKey) (.str mode.name)).outcome handle =
        (.ok (), handle') ∧
      handle'.Holds default s v { c with global := mode } := by
  obtain ⟨t, ready, tables⟩ := holds.tables
  obtain ⟨t', made, after⟩ := tables.upsertConfig (tables.config.setGlobal mode)
  exact ⟨_, write_ok ready "compat_config" made, holds.prepared, t', rfl, after⟩

theorem Holds.setOverride (holds : handle.Holds default s v c) (scope : Scope) (mode : Mode) :
    ∃ handle', (upsertConfig (.str scope.render) (.str mode.name)).outcome handle =
        (.ok (), handle') ∧
      handle'.Holds default s v (c.withOverride scope mode) := by
  obtain ⟨t, ready, tables⟩ := holds.tables
  obtain ⟨t', made, after⟩ := tables.upsertConfig (tables.config.setOverride scope mode)
  exact ⟨_, write_ok ready "compat_config" made, holds.prepared, t', rfl, after⟩

theorem Holds.clearOverride (holds : handle.Holds default s v c) (scope : Scope) :
    ∃ handle', (deleteConfig (.str scope.render)).outcome handle = (.ok (), handle') ∧
      handle'.Holds default s v (c.without scope) := by
  obtain ⟨t, ready, tables⟩ := holds.tables
  obtain ⟨t', made, after⟩ := tables.deleteConfig (tables.config.clearOverride scope)
  exact ⟨_, write_ok ready "compat_config" made, holds.prepared, t', rfl, after⟩

/-- A number that is no word is not written, and nothing else changes. -/
theorem Holds.insertSchema_overflow (holds : handle.Holds default s v c) {draft : SchemaDraft}
    {id : Int} (named : draft.id = .int id) (long : isWord id = false) :
    (insertSchema draft).outcome handle = (.error (.breakdown cellOverflow), handle) := by
  obtain ⟨t, ready, -⟩ := holds.tables
  exact write_breakdown ready "schemas" (Tables.insertSchema_overflow named long)

theorem Holds.insertVersion_overflow (holds : handle.Holds default s v c) {draft : VersionDraft}
    {n : Int} (named : draft.number = .int n) (long : isWord n = false) :
    (insertVersion draft).outcome handle = (.error (.breakdown cellOverflow), handle) := by
  obtain ⟨t, ready, -⟩ := holds.tables
  exact write_breakdown ready "subject_versions" (Tables.insertVersion_overflow named long)

end

end Storage

end AvroRegistry
