import AvroRegistry.Proofs.Storage.Owners
import AvroRegistry.Proofs.Storage.Writes
import AvroRegistry.Registry

/-!
# Opening a registry on its file

What a registry reads back. A file without tables gives an empty registry. A file that holds what a
registry knows gives one that knows the same: the schemas as they were, the versions of each scope
as they were, the mode of each scope and, over the same default, the global mode.
-/

namespace AvroRegistry

open Compatibility (Mode)

namespace Storage

/-- A handle that has made sure that the tables are there. -/
def ready (handle : Storage) (t : Tables) : Storage :=
  { handle with volume := .database (some t), prepared := true }

theorem prepare_outcome {handle : Storage} {tables : Option Tables}
    (database : handle.volume = .database tables) (unprepared : handle.prepared = false) :
    prepare.outcome handle = (.ok (), handle.ready (tables.getD {})) := by
  cases handle
  cases database
  cases unprepared
  rfl

theorem prepare_ready (handle : Storage) (t : Tables) :
    prepare.outcome (handle.ready t) = (.ok (), handle.ready t) := rfl

theorem loadSchemas_ready (handle : Storage) (t : Tables) :
    loadSchemas.outcome (handle.ready t) =
      (.ok (t.schemasById.map SchemaRow.schema), handle.ready t) := rfl

theorem loadVersions_ready (handle : Storage) (t : Tables) :
    loadVersions.outcome (handle.ready t) = (.ok t.versionsInOrder, handle.ready t) := rfl

theorem loadConfig_ready (handle : Storage) (t : Tables) :
    loadConfig.outcome (handle.ready t) = (.ok t.config, handle.ready t) := rfl

end Storage

namespace Registry

/-- A registry that knows nothing yet but a default for the global mode. -/
def fresh (default : Mode) (file : Option Storage) : Registry :=
  { config := { global := default }, storage := file }

/-- Reads the three stores of a registry from its file. -/
def load (default : Mode) : Step Storage (Schemas × Versions × Config) := do
  let schemas ← Schemas.recover
  let versions ← Versions.recover
  let config ← Config.recover default
  return (schemas, versions, config)

theorem openWith_some (default : Mode) (handle : Storage) :
    (openWith default).outcome (some handle) =
      match (load default).outcome handle with
      | (.ok (schemas, versions, config), opened) =>
        (.ok ⟨schemas, versions, config, some opened⟩, some opened)
      | (.error f, opened) => (.error f, some opened) := rfl

end Registry

open Storage (ready prepare_outcome prepare_ready loadSchemas_ready loadVersions_ready
  loadConfig_ready)

section

variable {handle : Storage} {tables : Option Tables} {s : Schemas} {v : Versions} {c : Config}
  {default : Mode}

/-- The stores are read one after the other, each from the tables that the first one has made sure
of. -/
theorem openWith_outcome (database : handle.volume = .database tables)
    (unprepared : handle.prepared = false)
    (schemas : Schemas.recoverFrom {} ((tables.getD {}).schemasById.map SchemaRow.schema) = .ok s)
    (versions : Versions.recoverFrom {} (tables.getD {}).versionsInOrder = .ok v)
    (config : Config.recoverFrom { global := default } (tables.getD {}).config = .ok c) :
    (Registry.openWith default).outcome (some handle) =
      (.ok ⟨s, v, c, some (handle.ready (tables.getD {}))⟩,
        some (handle.ready (tables.getD {}))) := by
  have first : Schemas.recover.outcome handle = (.ok s, handle.ready (tables.getD {})) := by
    unfold Schemas.recover
    rw [Step.bind_of_ok (prepare_outcome database unprepared),
      Step.bind_of_ok (loadSchemas_ready handle _), schemas]
    rfl
  have second : Versions.recover.outcome (handle.ready (tables.getD {})) =
      (.ok v, handle.ready (tables.getD {})) := by
    unfold Versions.recover
    rw [Step.bind_of_ok (prepare_ready handle _), Step.bind_of_ok (loadVersions_ready handle _),
      versions]
    rfl
  have third : (Config.recover default).outcome (handle.ready (tables.getD {})) =
      (.ok c, handle.ready (tables.getD {})) := by
    unfold Config.recover
    rw [Step.bind_of_ok (prepare_ready handle _), Step.bind_of_ok (loadConfig_ready handle _),
      config]
    rfl
  have read : (Registry.load default).outcome handle =
      (.ok (s, v, c), handle.ready (tables.getD {})) := by
    unfold Registry.load
    rw [Step.bind_of_ok first, Step.bind_of_ok second, Step.bind_of_ok third]
    rfl
  rw [Registry.openWith_some, read]

/-- The schemas that tables hold are listed by their ids as they were stored. -/
theorem schemasById_eq {t : Tables} (held : t.schemas.map SchemaRow.schema = s.entries)
    (sound : s.Sound) : t.schemasById.map SchemaRow.schema = s.entries := by
  have sorted : t.schemas.Pairwise fun a b => decide (a.id ≤ b.id) = true := by
    have ascending := sound.ascending
    rw [← held, List.pairwise_map] at ascending
    exact ascending.imp fun lt => decide_eq_true (Int.le_of_lt lt)
  unfold Tables.schemasById
  rw [List.mergeSort_of_pairwise sorted, held]

/-- A file that holds what a registry knows is opened again, over the same default or another one,
and gives a registry that knows the same. -/
theorem Storage.Holds.reopened (holds : handle.Holds default s v c) (soundS : s.Sound)
    (soundV : Versions.Sound s v) (other : Mode) :
    ∃ w d opened, (Registry.openWith other).outcome (some handle.reopened) =
        (.ok ⟨s, w, d, some opened⟩, some opened) ∧
      opened.Holds other s w d ∧ Versions.Sound s w ∧ w.rows.Perm v.rows ∧
      (∀ scope, w.ofScope scope = v.ofScope scope) ∧
      (∀ scope, d.override? scope = c.override? scope) ∧
      (other = default → d.global = c.global) := by
  obtain ⟨t, database, tables⟩ := holds.tables
  obtain ⟨rows, perm, written⟩ := tables.versions
  obtain ⟨w, readV, soundW, permW, scopes⟩ := soundV.recovered perm written
  obtain ⟨d, readC, kept, overrides, global⟩ := tables.config.recovered other
  have readS : Schemas.recoverFrom {} (t.schemasById.map SchemaRow.schema) = .ok s := by
    rw [schemasById_eq tables.schemas soundS, soundS.recoverFrom_entries]
  have again : handle.reopened.volume = .database (some t) := database
  refine ⟨w, d, handle.reopened.ready t, openWith_outcome again rfl readS readV readC,
    ⟨rfl, t, rfl, tables.schemas, tables.ids, ⟨rows, perm.trans permW.symm, written⟩, ?_, kept⟩,
    soundW, permW, scopes, overrides, global⟩
  exact fun r mem => tables.numbers r (permW.subset mem)

/-- A file that is new gives an empty registry, and has its tables from then on. -/
theorem openWith_new (database : handle.volume = .database none)
    (unprepared : handle.prepared = false) (default : Mode) :
    (Registry.openWith default).outcome (some handle) =
        (.ok (Registry.fresh default (some (handle.ready {}))), some (handle.ready {})) ∧
      (handle.ready {}).Holds default {} {} { global := default } := by
  have schemas : ((none : Option Tables).getD {}).schemasById = [] := List.mergeSort_nil
  have versions : ((none : Option Tables).getD {}).versionsInOrder = [] := List.mergeSort_nil
  refine ⟨openWith_outcome database unprepared ?_ ?_ rfl, rfl, {}, rfl,
    Tables.holds_empty default⟩
  · rw [schemas]
    rfl
  · rw [versions]
    rfl

end

end AvroRegistry
