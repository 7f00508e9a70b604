import AvroRegistry.Proofs.Sorting.Permuted
import AvroRegistry.Proofs.Store.Config

/-!
# Whose rows are whose

The rows of versions and of modes in a file have owners. A version and the mode of a scope belong to
that scope; the row of the global mode belongs to no scope, and stands for an owner of its own. An
owner is known by a key: a scope by its writing, and the global mode by a text that is the writing
of no scope.

So the rows under the keys of two owners are different rows, and what is written for one owner leaves
the rows of every other one as they are. Modes are read back by their keys as well: each owner gets
the mode that the last row under its own key names, and a table of modes can be read back as soon as
every row names a mode and has an owner. A store that is kept in rows is therefore read back from
them as it was.
-/

namespace AvroRegistry

open Compatibility (Mode)
open Sorting (bind_eq_ok)

/-! ## Owners -/

/-- Whose a row is: that of a scope, or that of the global mode. -/
inductive Owner where
  | scope (scope : Scope)
  | global
  deriving DecidableEq

namespace Owner

/-- The key that the rows of an owner stand under. -/
def key : Owner → String
  | .scope s => s.render
  | .global => globalKey

/-- Two owners have two keys. -/
theorem key_injective : Function.Injective key := by
  intro a b same
  cases a with
  | scope s =>
    cases b with
    | scope s' => exact congrArg Owner.scope (Scope.render_injective same)
    | global => exact absurd same (Config.render_ne_globalKey s)
  | global =>
    cases b with
    | scope s => exact absurd same.symm (Config.render_ne_globalKey s)
    | global => rfl

end Owner

/-- The rows that a file keeps for an owner. -/
structure OwnedRows where
  versions : List VersionRow
  modes : List ConfigRow

/-! ## Rows under a key -/

namespace Tables

/-- The rows under the key of an owner. -/
def rowsOf (owner : Owner) (t : Tables) : OwnedRows where
  versions := t.versions.filter fun row => row.scope.render == owner.key
  modes := t.config.filter fun row => row.key == some owner.key

section

variable {t t' : Tables} {a b owner : Owner}

/-- The row of a version stands under the key of its scope, and under no other one. -/
theorem mem_versions_rowsOf {row : VersionRow} :
    row ∈ (t.rowsOf owner).versions ↔ row ∈ t.versions ∧ owner = .scope row.scope := by
  show row ∈ t.versions.filter _ ↔ _
  rw [List.mem_filter, beq_iff_eq]
  refine and_congr_right fun _ => ⟨fun same => ?_, ?_⟩
  · have keys : owner.key = (Owner.scope row.scope).key := same.symm
    exact Owner.key_injective keys
  · intro same
    rw [same]
    rfl

theorem mem_modes_rowsOf {row : ConfigRow} :
    row ∈ (t.rowsOf owner).modes ↔ row ∈ t.config ∧ row.key = some owner.key := by
  show row ∈ t.config.filter _ ↔ _
  rw [List.mem_filter, beq_iff_eq]

/-- Where no key has two rows, only the row that is found under a key stands there. -/
theorem filter_key_eq (key : String) {rows : List ConfigRow} (keys : (rows.map (·.key)).Nodup) :
    (rows.filter fun row => row.key == some key) =
      ((Config.modeAt key rows).map (ConfigRow.mk (some key))).toList := by
  induction rows with
  | nil => rfl
  | cons row rest ih =>
    obtain ⟨absent, keysRest⟩ := List.nodup_cons.1 keys
    by_cases here : row.key = some key
    · have alone : Config.modeAt key rest = none := Config.modeAt_eq_none (here ▸ absent)
      rw [List.filter_cons_of_pos (by simpa using here), ih keysRest, alone,
        Config.modeAt_here rest here]
      show [row] = [⟨some key, row.mode⟩]
      rw [← here]
    · rw [List.filter_cons_of_neg (by simpa using here), Config.modeAt_later rest here, ih keysRest]

/-- Two owners have no row of a version in common. -/
theorem disjoint_versions (t : Tables) (differ : a ≠ b) :
    (t.rowsOf a).versions.Disjoint (t.rowsOf b).versions := by
  intro row first second
  have ofA := (mem_versions_rowsOf.1 first).2
  have ofB := (mem_versions_rowsOf.1 second).2
  exact differ (ofA.trans ofB.symm)

/-- Nor have they the row of a mode in common. -/
theorem disjoint_modes (t : Tables) (differ : a ≠ b) :
    (t.rowsOf a).modes.Disjoint (t.rowsOf b).modes := by
  intro row first second
  have underA := (mem_modes_rowsOf.1 first).2
  have underB := (mem_modes_rowsOf.1 second).2
  exact differ (Owner.key_injective (Option.some.inj (underA.symm.trans underB)))

/-- The row that is found for a scope and a number is a row of that scope. -/
theorem scope_of_isRowOf {scope : Scope} {number : Cell} {row : VersionRow}
    (found : isRowOf scope number row = true) : row.scope = scope := by
  unfold isRowOf at found
  rw [Bool.and_eq_true, beq_iff_eq] at found
  exact Scope.render_injective found.1

/-! ## What a write makes of the tables -/

theorem insertSchema_eq_ok {draft : SchemaDraft} (made : t.insertSchema draft = .ok t') :
    ∃ schemas, t' = { t with schemas := schemas } := by
  unfold insertSchema at made
  obtain ⟨id, -, made⟩ := bind_eq_ok.1 made
  obtain ⟨fingerprint, -, made⟩ := bind_eq_ok.1 made
  obtain ⟨canonical, -, made⟩ := bind_eq_ok.1 made
  obtain ⟨raw, -, made⟩ := bind_eq_ok.1 made
  obtain ⟨key, -, made⟩ := bind_eq_ok.1 made
  obtain ⟨fingerprintText, -, made⟩ := bind_eq_ok.1 made
  obtain ⟨canonicalText, -, made⟩ := bind_eq_ok.1 made
  obtain ⟨rawText, -, made⟩ := bind_eq_ok.1 made
  dsimp only at made
  split at made
  · cases made
  · split at made
    · cases made
    · cases made
      exact ⟨_, rfl⟩

theorem insertVersion_eq_ok {draft : VersionDraft} (made : t.insertVersion draft = .ok t') :
    ∃ number schemaId, t' = { t with versions :=
      t.versions ++ [⟨draft.scope, number, schemaId, draft.deleted⟩] } := by
  unfold insertVersion at made
  obtain ⟨number, -, made⟩ := bind_eq_ok.1 made
  obtain ⟨schemaId, -, made⟩ := bind_eq_ok.1 made
  obtain ⟨numberCell, -, made⟩ := bind_eq_ok.1 made
  obtain ⟨schemaCell, -, made⟩ := bind_eq_ok.1 made
  split at made
  · cases made
  · cases made
    exact ⟨_, _, rfl⟩

theorem markDeleted_eq_ok {scope : Scope} {number : Json}
    (made : t.markDeleted scope number = .ok t') :
    ∃ cell, t' = { t with versions := markRow scope cell t.versions } := by
  unfold markDeleted at made
  obtain ⟨cell, -, made⟩ := bind_eq_ok.1 made
  cases made
  exact ⟨_, rfl⟩

theorem upsertConfig_eq_ok {key : String} {mode : Json}
    (made : t.upsertConfig (.str key) mode = .ok t') :
    ∃ name, t' = { t with config := setMode (some key) name t.config } := by
  unfold upsertConfig at made
  obtain ⟨cell, bound, made⟩ := bind_eq_ok.1 made
  cases bound
  obtain ⟨value, -, made⟩ := bind_eq_ok.1 made
  obtain ⟨name, -, made⟩ := bind_eq_ok.1 made
  cases made
  exact ⟨name, rfl⟩

theorem deleteConfig_eq_ok {key : String} (made : t.deleteConfig (.str key) = .ok t') :
    t' = { t with config := t.config.filter fun row => row.key != some key } :=
  (Except.ok.inj made).symm

/-! ## Writes for another owner -/

theorem rowsOf_insertSchema {draft : SchemaDraft} (made : t.insertSchema draft = .ok t')
    (owner : Owner) : t'.rowsOf owner = t.rowsOf owner := by
  obtain ⟨schemas, rfl⟩ := insertSchema_eq_ok made
  rfl

theorem rowsOf_insertVersion {draft : VersionDraft} (made : t.insertVersion draft = .ok t')
    (other : owner ≠ .scope draft.scope) : t'.rowsOf owner = t.rowsOf owner := by
  obtain ⟨number, schemaId, rfl⟩ := insertVersion_eq_ok made
  have away : ¬ (draft.scope.render == owner.key) = true := by
    rw [beq_iff_eq]
    exact fun same => other (Owner.key_injective same.symm)
  unfold rowsOf
  dsimp only
  rw [List.filter_append, List.filter_cons, if_neg away, List.filter_nil, List.append_nil]

theorem rowsOf_markDeleted {scope : Scope} {number : Json}
    (made : t.markDeleted scope number = .ok t') (other : owner ≠ .scope scope) :
    t'.rowsOf owner = t.rowsOf owner := by
  obtain ⟨cell, rfl⟩ := markDeleted_eq_ok made
  have untouched : (markRow scope cell t.versions).filter
      (fun row => row.scope.render == owner.key) =
        t.versions.filter fun row => row.scope.render == owner.key := by
    unfold markRow
    induction t.versions with
    | nil => rfl
    | cons row rest ih =>
      rw [List.map_cons]
      by_cases found : isRowOf scope cell row = true
      · -- The row that is marked stands under another key.
        have away : ¬ (row.scope.render == owner.key) = true := by
          rw [beq_iff_eq, scope_of_isRowOf found]
          exact fun same => other (Owner.key_injective same.symm)
        rw [if_pos found, List.filter_cons, List.filter_cons, if_neg away, if_neg away, ih]
      · rw [if_neg found, List.filter_cons, List.filter_cons, ih]
  unfold rowsOf
  dsimp only
  rw [untouched]

/-- Among the rows of all keys but one are all rows of any other key. -/
theorem filter_key_ne {key other : String} (differ : key ≠ other) (rows : List ConfigRow) :
    (rows.filter fun row => row.key != some key).filter (fun row => row.key == some other) =
      rows.filter fun row => row.key == some other := by
  rw [List.filter_filter]
  refine List.filter_congr fun row _ => ?_
  by_cases here : row.key = some other
  · have apart : row.key ≠ some key := fun there =>
      differ (Option.some.inj (there.symm.trans here))
    rw [beq_iff_eq.2 here, bne_iff_ne.2 apart]
    rfl
  · rw [beq_eq_false_iff_ne.2 here, Bool.false_and]

theorem rowsOf_deleteConfig (made : t.deleteConfig (.str a.key) = .ok t') (other : owner ≠ a) :
    t'.rowsOf owner = t.rowsOf owner := by
  have differ : a.key ≠ owner.key := Owner.key_injective.ne other.symm
  rw [deleteConfig_eq_ok made]
  unfold rowsOf
  dsimp only
  rw [filter_key_ne differ]

theorem rowsOf_upsertConfig {mode : Json} (made : t.upsertConfig (.str a.key) mode = .ok t')
    (other : owner ≠ a) : t'.rowsOf owner = t.rowsOf owner := by
  obtain ⟨name, rfl⟩ := upsertConfig_eq_ok made
  have differ : a.key ≠ owner.key := Owner.key_injective.ne other.symm
  unfold rowsOf
  dsimp only
  rw [← filter_key_ne differ, Config.others_setMode, filter_key_ne differ]

end

end Tables

/-! ## Reading modes back -/

namespace Config

/-- The mode that a store has for an owner. -/
def modeFor? (c : Config) : Owner → Option Mode
  | .scope s => c.override? s
  | .global => some c.global

/-- A store with the mode of an owner set. -/
def withMode (c : Config) (mode : Mode) : Owner → Config
  | .scope s => c.withOverride s mode
  | .global => { c with global := mode }

/-- The modes that rows name under the key of an owner, in their order. -/
def namedUnder (owner : Owner) (rows : List ConfigRow) : List Mode :=
  rows.filterMap fun row => if row.key = some owner.key then Mode.ofText? row.mode else none

/-- A row that can be read back: it names a mode, and has an owner. -/
def Readable (row : ConfigRow) : Prop :=
  (∃ mode, Mode.ofText? row.mode = some mode) ∧ ∃ owner : Owner, row.key = some owner.key

section

variable {c d : Config} {row : ConfigRow} {rows : List ConfigRow}

theorem modeFor?_withMode (c : Config) (mode : Mode) (a b : Owner) :
    (c.withMode mode a).modeFor? b = if a = b then some mode else c.modeFor? b := by
  cases a with
  | scope s =>
    cases b with
    | scope s' =>
      show (c.withOverride s mode).override? s' = _
      rw [override?_withOverride]
      exact if_congr ⟨congrArg Owner.scope, Owner.scope.inj⟩ rfl rfl
    | global => rfl
  | global =>
    cases b with
    | scope s => rfl
    | global => rfl

theorem parseMode_str (text : String) :
    parseMode (.json (.str text)) =
      match Mode.ofText? text with
      | some mode => .ok mode
      | none => .error (.fault (.invalidMode (.str text))) := rfl

/-- A key is that of a scope exactly if it is the writing of that scope. -/
theorem scopeOfKey_eq_ok {key : Option String} {scope : Scope} :
    scopeOfKey key = .ok scope ↔ key = some (Owner.scope scope).key := by
  cases key with
  | none =>
    constructor
    · intro read
      cases read
    · intro same
      cases same
  | some text =>
    unfold scopeOfKey
    dsimp only
    rw [Option.some.injEq, eq_comm (a := text)]
    show _ ↔ scope.render = text
    rw [← Scope.parse_eq_ok_iff]
    cases Scope.parse text with
    | ok s => rw [Except.ok.injEq, Except.ok.injEq]
    | error e => exact ⟨nofun, nofun⟩

/-- A row is read by setting the mode that it names for its owner. -/
theorem recoverFrom_cons_eq_ok :
    recoverFrom c (row :: rows) = .ok d ↔
      ∃ mode owner, Mode.ofText? row.mode = some mode ∧ row.key = some (Owner.key owner) ∧
        recoverFrom (c.withMode mode owner) rows = .ok d := by
  rw [recoverFrom, parseMode_str]
  constructor
  · intro read
    cases named : Mode.ofText? row.mode with
    | none =>
      rw [named] at read
      cases read
    | some mode =>
      rw [named] at read
      dsimp only at read
      split at read
      · next keyed => exact ⟨mode, .global, rfl, keyed, read⟩
      · cases found : scopeOfKey row.key with
        | error f =>
          rw [found] at read
          cases read
        | ok scope =>
          rw [found] at read
          exact ⟨mode, .scope scope, rfl, scopeOfKey_eq_ok.1 found, read⟩
  · rintro ⟨mode, owner, named, keyed, read⟩
    rw [named]
    dsimp only
    cases owner with
    | global => exact (if_pos keyed).trans read
    | scope s =>
      have other : row.key ≠ some globalKey := fun same =>
        render_ne_globalKey s (Option.some.inj (keyed.symm.trans same))
      rw [if_neg other, scopeOfKey_eq_ok.2 keyed]
      exact read

theorem namedUnder_cons {mode : Mode} {a : Owner} (named : Mode.ofText? row.mode = some mode)
    (keyed : row.key = some a.key) (b : Owner) (rows : List ConfigRow) :
    namedUnder b (row :: rows) = if a = b then mode :: namedUnder b rows else namedUnder b rows := by
  unfold namedUnder
  by_cases same : a = b
  · subst same
    rw [if_pos rfl, List.filterMap_cons_some]
    rw [if_pos keyed]
    exact named
  · have other : row.key ≠ some b.key := fun there =>
      same (Owner.key_injective (Option.some.inj (keyed.symm.trans there)))
    rw [if_neg same, List.filterMap_cons_none]
    exact if_neg other

/-- Modes that are read back: each owner has the mode that the last row under its own key names, and
without such a row what it had before. -/
theorem modeFor?_of_recoverFrom (read : recoverFrom c rows = .ok d) (owner : Owner) :
    d.modeFor? owner = (namedUnder owner rows).getLast?.or (c.modeFor? owner) := by
  induction rows generalizing c with
  | nil =>
    cases read
    rfl
  | cons row rest ih =>
    obtain ⟨mode, a, named, keyed, read⟩ := recoverFrom_cons_eq_ok.1 read
    rw [ih read, modeFor?_withMode, namedUnder_cons named keyed]
    by_cases same : a = owner
    · rw [if_pos same, if_pos same, List.getLast?_cons]
      cases (namedUnder owner rest).getLast? <;> rfl
    · rw [if_neg same, if_neg same]

/-- Modes can be read back from rows exactly if every row names a mode and has an owner. -/
theorem recoverFrom_ok_iff :
    (∃ d, recoverFrom c rows = .ok d) ↔ ∀ row ∈ rows, Readable row := by
  induction rows generalizing c with
  | nil => exact ⟨fun _ _ mem => absurd mem List.not_mem_nil, fun _ => ⟨c, rfl⟩⟩
  | cons row rest ih =>
    rw [List.forall_mem_cons]
    constructor
    · rintro ⟨d, read⟩
      obtain ⟨mode, owner, named, keyed, read⟩ := recoverFrom_cons_eq_ok.1 read
      exact ⟨⟨⟨mode, named⟩, owner, keyed⟩, ih.1 ⟨d, read⟩⟩
    · rintro ⟨⟨⟨mode, named⟩, owner, keyed⟩, later⟩
      obtain ⟨d, read⟩ := (@ih (c.withMode mode owner)).2 later
      exact ⟨d, recoverFrom_cons_eq_ok.2 ⟨mode, owner, named, keyed, read⟩⟩

/-! ## Reading back what is kept -/

/-- Rows that a registry writes can be read back. -/
theorem Known.readable (known : Known row) : Readable row := by
  obtain ⟨mode, written⟩ := known.mode
  refine ⟨⟨mode, written ▸ Mode.ofText?_name mode⟩, ?_⟩
  rcases known.key with keyed | ⟨scope, keyed⟩
  · exact ⟨.global, keyed⟩
  · exact ⟨.scope scope, keyed⟩

/-- Where no key has two rows, the mode that is read for an owner is that of the owner's row. -/
theorem getLast?_namedUnder (keys : (rows.map (·.key)).Nodup) (known : ∀ row ∈ rows, Known row)
    (owner : Owner) :
    (namedUnder owner rows).getLast?.map Mode.name = modeAt owner.key rows := by
  have named : namedUnder owner rows =
      ((modeAt owner.key rows).map (ConfigRow.mk (some owner.key))).toList.filterMap
        fun row => Mode.ofText? row.mode := by
    rw [← Tables.filter_key_eq _ keys, List.filterMap_filter]
    simp only [namedUnder, beq_iff_eq]
  rw [named]
  cases found : modeAt owner.key rows with
  | none => rfl
  | some name =>
    obtain ⟨row, there, rfl⟩ := Option.map_eq_some_iff.1 found
    obtain ⟨mode, written⟩ := (known row (List.mem_of_find?_eq_some there)).mode
    rw [written]
    simp [Mode.ofText?_name]

/-- A store that is kept in rows is read back from them, over the same default or another one. The
store read is kept in the rows too and has the same mode for each scope, and over the same default
it has the same global mode. -/
theorem Kept.recovered {default : Mode} (kept : Kept default rows c) (other : Mode) :
    ∃ d, recoverFrom { global := other } rows = .ok d ∧ Kept other rows d ∧
      (∀ scope, d.override? scope = c.override? scope) ∧
      (other = default → d.global = c.global) := by
  obtain ⟨d, read⟩ : ∃ d, recoverFrom { global := other } rows = .ok d :=
    recoverFrom_ok_iff.2 fun row mem => (kept.known row mem).readable
  have said : ∀ owner, (d.modeFor? owner).map Mode.name =
      (modeAt owner.key rows).or
        ((modeFor? { global := other } owner).map Mode.name) := by
    intro owner
    rw [modeFor?_of_recoverFrom read, Option.map_or, getLast?_namedUnder kept.keys kept.known]
  have overrides : ∀ scope : Scope, (d.override? scope).map Mode.name = modeAt scope.render rows :=
    fun scope => (said (.scope scope)).trans Option.or_none
  have global : d.global.name = (modeAt globalKey rows).getD other.name :=
    Option.some.inj ((said .global).trans Option.or_some)
  refine ⟨d, read, ⟨kept.keys, kept.known, global, overrides⟩, fun scope => ?_, ?_⟩
  · exact Option.map_injective (fun _ _ => name_injective)
      ((overrides scope).trans (kept.overrides scope).symm)
  · rintro rfl
    exact name_injective (global.trans kept.global.symm)

end

end Config

end AvroRegistry
