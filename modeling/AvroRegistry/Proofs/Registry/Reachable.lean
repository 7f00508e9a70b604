import AvroRegistry.Proofs.Registry.Opening
import AvroRegistry.Proofs.Registry.Operations

/-!
# Registries that can come about

A registry is opened, in memory or on a new file, and then carries out operations in any order, with
arguments that may be anything. If it has a file it may be thrown away at any moment and opened
again on it, over the same default or another one. Every registry that comes about in this way is
sound, so nothing that would betray a corrupt store ever happens to it.
-/

namespace AvroRegistry.Registry

open Compatibility (Mode)

/-- The registries that can come about, each with the default that it was last opened with. -/
inductive Reachable : Mode → Registry → Prop where
  /-- A registry in memory. -/
  | memory (default : Mode) : Reachable default (fresh default none)
  /-- A registry on a file that does not exist yet, or is a database without tables. -/
  | file {default : Mode} {handle : Storage} {r : Registry} {opened : Option Storage}
      (database : handle.volume = .database none) (unprepared : handle.prepared = false)
      (opening : (openWith default).outcome (some handle) = (.ok r, opened)) :
      Reachable default r
  /-- What an operation leaves, whether it gives a result or fails. -/
  | perform {default : Mode} {r : Registry} (op : Operation) (before : Reachable default r) :
      Reachable default ((Registry.perform op).outcome r).2
  /-- A registry opened again on the file of another one. -/
  | reopen {default other : Mode} {handle : Storage} {r r' : Registry} {opened : Option Storage}
      (before : Reachable default r) (backed : r.storage = some handle)
      (opening : (openWith other).outcome (some handle.reopened) = (.ok r', opened)) :
      Reachable other r'

section

variable {default : Mode} {r : Registry}

/-! ## Soundness -/

/-- A sound registry carries out an operation as one in memory that knows the same would. -/
theorem Sound.together (sound : r.Sound default) : Together default (r.withFile none) r where
  memory := rfl
  left := ⟨sound.schemas, sound.versions, nofun⟩
  right := sound
  alike := (Alike.refl r).withFile none r.storage

theorem sound_fresh (default : Mode) : Sound default (fresh default none) :=
  ⟨Schemas.sound_empty, Versions.sound_empty {}, nofun⟩

theorem sound_opened {handle : Storage} (database : handle.volume = .database none)
    (unprepared : handle.prepared = false) (default : Mode) :
    Sound default (fresh default (some (handle.ready {}))) := by
  refine ⟨Schemas.sound_empty, Versions.sound_empty {}, fun handle' same => ?_⟩
  cases same
  exact (openWith_new database unprepared default).2

/-- What holds of every operation of a sound registry: it leaves a sound one, loses no version, and
does not end in an internal fault. -/
theorem Sound.perform (sound : r.Sound default) (op : Operation) :
    ((Registry.perform op).outcome r).2.Sound default ∧
      Keeps r ((Registry.perform op).outcome r).2 ∧
      ¬ Internal ((Registry.perform op).outcome r).1 := by
  obtain ⟨result, m', b', -, proper, -, grows, -, second⟩ := perform_tandem sound.together op
  rcases second with ⟨second, together⟩ | ⟨-, -, after, same, second⟩
  · rw [second]
    exact ⟨together.right, grows.keeps.alike sound.together.alike together.alike, proper⟩
  · rw [second]
    exact ⟨after, .of_eq same, not_internal_breakdown _⟩

/-- A sound registry with a file can be opened again, over any default; it is sound again, and has
lost no version. -/
theorem Sound.reopened (sound : r.Sound default) {handle : Storage}
    (backed : r.storage = some handle) (other : Mode) :
    ∃ r' opened, (openWith other).outcome (some handle.reopened) = (.ok r', some opened) ∧
      r'.Sound other ∧ Keeps r r' := by
  obtain ⟨w, d, opened, opening, holds, versions, perm, -⟩ :=
    (sound.file handle backed).reopened sound.schemas sound.versions other
  refine ⟨⟨r.schemas, w, d, some opened⟩, opened, opening,
    ⟨sound.schemas, versions, fun handle' same => ?_⟩, fun version known => ?_⟩
  · cases same
    exact holds
  · exact ⟨version, perm.symm.subset known, rfl, rfl, rfl⟩

theorem Reachable.sound (reachable : Reachable default r) : r.Sound default := by
  induction reachable with
  | memory default => exact sound_fresh default
  | @file default handle r opened database unprepared opening =>
    obtain ⟨opening', -⟩ := openWith_new database unprepared default
    rw [opening'] at opening
    cases opening
    exact sound_opened database unprepared default
  | perform op before ih => exact (ih.perform op).1
  | @reopen default other handle r r' opened before backed opening ih =>
    obtain ⟨r'', again, opening', sound, -⟩ := ih.reopened backed other
    rw [opening'] at opening
    cases opening
    exact sound

/-! ## What never happens -/

/-- A registry whose stores fit together, and to which nothing happens that would deny it. -/
structure Intact (r : Registry) : Prop where
  /-- Every version, live or deleted, points at the id of a stored schema, which is found. -/
  points : ∀ version ∈ r.versions.rows, ∃ e ∈ r.schemas.entries,
    version.schemaId = .int e.id ∧ r.schemaOf version = .ok e
  /-- No two live versions of a scope hold schemas with one canonical text. -/
  single : r.versions.rows.Pairwise fun a b =>
    a.scope = b.scope → a.deleted = false → b.deleted = false →
      ∀ e e', r.schemaOf a = .ok e → r.schemaOf b = .ok e' → e.canonical ≠ e'.canonical
  /-- In a file every row of a version points at the row of a schema. -/
  filed : ∀ handle tables, r.storage = some handle → handle.volume = .database (some tables) →
    ∀ row ∈ tables.versions, ∃ stored ∈ tables.schemas, row.schemaId = .integer stored.id
  /-- No operation loses a version or ends in an internal fault. -/
  performs : ∀ op, Keeps r ((Registry.perform op).outcome r).2 ∧
    ¬ Internal ((Registry.perform op).outcome r).1
  /-- When a schema that is not live in a scope has been stored, its id is not refused. -/
  appends : ∀ scope (candidate : Schema.Canonical) id r',
    r.live? scope candidate.fingerprint = none →
    (onSchemas (Schemas.put (.str candidate.text) (.str candidate.raw)
      (.str candidate.fingerprint))).outcome r = (.ok id, r') →
    ∀ existing r'', (onVersions (Versions.append scope (.int id))).outcome r' ≠
      (.error (.fault (.alreadyExists existing)), r'')
  /-- Whatever the default, the registry can be opened again on its file, and no version is lost. -/
  reopens : ∀ handle, r.storage = some handle → ∀ other, ∃ r' opened,
    (openWith other).outcome (some handle.reopened) = (.ok r', opened) ∧ Keeps r r'

/-- Two versions that are live in a scope hold two canonical texts: a text is stored once, and they
do not point at one schema. -/
theorem Sound.single (sound : r.Sound default) :
    r.versions.rows.Pairwise fun a b =>
      a.scope = b.scope → a.deleted = false → b.deleted = false →
        ∀ e e', r.schemaOf a = .ok e → r.schemaOf b = .ok e' → e.canonical ≠ e'.canonical := by
  refine sound.versions.single.imp_of_mem ?_
  intro a b ha hb apart scopes liveA liveB e e' holdsA holdsB same
  obtain ⟨d, stored, points, found⟩ := sound.schemaOf ha
  obtain ⟨d', stored', points', found'⟩ := sound.schemaOf hb
  cases holdsA.symm.trans found
  cases holdsB.symm.trans found'
  cases sound.schemas.eq_of_canonical stored stored' same
  exact apart scopes liveA liveB (points.trans points'.symm)

/-- The rows of a file point at one another as the versions and schemas do that they hold. -/
theorem Sound.filed (sound : r.Sound default) {handle : Storage} {tables : Tables}
    (backed : r.storage = some handle) (ready : handle.volume = .database (some tables)) :
    ∀ row ∈ tables.versions, ∃ stored ∈ tables.schemas, row.schemaId = .integer stored.id := by
  obtain ⟨t, ready', holds⟩ := (sound.file handle backed).tables
  cases ready.symm.trans ready'
  obtain ⟨rows, perm, written⟩ := holds.versions
  intro row mem
  rw [written] at mem
  obtain ⟨version, listed, rfl⟩ := List.mem_map.1 mem
  obtain ⟨e, stored, points⟩ := sound.versions.points version (perm.subset listed)
  rw [← holds.schemas] at stored
  obtain ⟨kept, here, rfl⟩ := List.mem_map.1 stored
  refine ⟨kept, here, ?_⟩
  unfold Versions.row
  rw [points]
  rfl

/-- Every registry that can come about is intact. -/
theorem Reachable.intact (reachable : Reachable default r) : r.Intact where
  points version known := reachable.sound.schemaOf known
  single := reachable.sound.single
  filed handle tables backed ready := reachable.sound.filed backed ready
  performs op := (reachable.sound.perform op).2
  appends scope candidate id r' unheld put existing r'' refused := by
    obtain ⟨sound, e, stored, rfl, none⟩ := reachable.sound.put_unheld unheld put
    rcases append_commits sound stored none with ⟨_, -, appended, -⟩ | ⟨-, -, _, -, -, -, broke⟩
    · rw [appended] at refused
      cases refused
    · rw [broke] at refused
      cases refused
  reopens handle backed other := by
    obtain ⟨r', opened, opening, -, keeps⟩ := reachable.sound.reopened backed other
    exact ⟨r', some opened, opening, keeps⟩

/-- A registry on a new file that has registered a schema. -/
def registered : Registry :=
  ((Registry.perform (.register (.str "orders") (.typed .value) (.str "\"string\""))).outcome
    (fresh .backward (some (Storage.ready { path := "registry.db" } {})))).2

/-- It has a file and a version, and is intact. -/
theorem registered_intact :
    Reachable .backward registered ∧ registered.storage.isSome = true ∧
      registered.versions.rows.length = 1 ∧ registered.Intact := by
  have reachable : Reachable .backward registered :=
    .perform _ (.file rfl rfl (openWith_new rfl rfl .backward).1)
  exact ⟨reachable, by decide +kernel, by decide +kernel, reachable.intact⟩

end

end AvroRegistry.Registry
