import AvroRegistry.Proofs.Store.Config
import AvroRegistry.Proofs.Store.Versions

/-!
# Tables that hold what a registry knows

`Tables.Holds` says that tables hold the schemas, the versions and the modes of a registry. The
schemas are held in their order, the versions in any order, and every number that the tables hold is
a word. Each write that a registry makes gives tables that hold what the registry knows afterwards;
the only writes that are refused are of numbers that are no words.
-/

namespace AvroRegistry.Tables

open Compatibility (Mode)
open Versions (row marked)

/-- Tables hold a store of schemas, an index of versions and a store of modes. -/
structure Holds (default : Mode) (t : Tables) (s : Schemas) (v : Versions) (c : Config) :
    Prop where
  schemas : t.schemas.map SchemaRow.schema = s.entries
  ids : ∀ e ∈ s.entries, isWord e.id = true
  versions : ∃ rows : List Version, rows.Perm v.rows ∧ t.versions = rows.map row
  numbers : ∀ r ∈ v.rows, isWord r.number = true
  config : c.Kept default t.config

theorem holds_empty (default : Mode) : Holds default {} {} {} { global := default } :=
  ⟨rfl, by simp, ⟨[], List.Perm.refl _, rfl⟩, by simp, Config.kept_empty default⟩

theorem bind_int (position : Nat) {n : Int} (word : isWord n = true) :
    Cell.bind position (.int n) = .ok (.integer n) := if_pos word

theorem bind_overflow (position : Nat) {n : Int} (long : isWord n = false) :
    Cell.bind position (.int n) = .error (.breakdown cellOverflow) :=
  if_neg (by rw [long]; exact Bool.false_ne_true)

section

variable {default : Mode} {t : Tables} {s : Schemas} {v : Versions} {c : Config}

/-! ## Schemas -/

theorem insertSchema_eq {canonical raw : String} {id : Int} {fingerprint : String}
    (word : isWord id = true) (newId : ∀ e ∈ t.schemas, e.id ≠ id)
    (newFingerprint : ∀ e ∈ t.schemas, e.fingerprint ≠ fingerprint) :
    t.insertSchema ⟨.int id, .str fingerprint, .str canonical, .str raw⟩ =
      .ok { t with schemas := t.schemas ++ [⟨id, fingerprint, canonical, raw⟩] } := by
  have freeId : t.schemas.any (fun e => e.id == id) = false := by
    rw [List.any_eq_false]
    intro e mem same
    exact newId e mem (beq_iff_eq.1 same)
  have freeFingerprint : t.schemas.any (fun e => e.fingerprint == fingerprint) = false := by
    rw [List.any_eq_false]
    intro e mem same
    exact newFingerprint e mem (beq_iff_eq.1 same)
  unfold insertSchema
  dsimp only
  rw [bind_int 1 word]
  show (if t.schemas.any (fun e => e.id == id) then _ else _ : Except TableFailure Tables) = _
  rw [freeId, if_neg Bool.false_ne_true]
  show (if t.schemas.any (fun e => e.fingerprint == fingerprint) then _ else _ :
    Except TableFailure Tables) = _
  rw [freeFingerprint, if_neg Bool.false_ne_true]
  rfl

theorem insertSchema_overflow {draft : SchemaDraft} {id : Int} (named : draft.id = .int id)
    (long : isWord id = false) : t.insertSchema draft = .error (.breakdown cellOverflow) := by
  unfold insertSchema
  rw [named, bind_overflow 1 long]
  rfl

/-- A schema that is stored next can be written, if its id is a word. -/
theorem Holds.addSchema (holds : t.Holds default s v c) (sound : s.Sound)
    {canonical : String} (raw : String)
    (absent : s.withFingerprint? (.str (Schema.fingerprint canonical)) = none)
    (word : isWord (s.lastId + 1) = true) :
    ∃ t', t.insertSchema (s.next canonical raw).draft = .ok t' ∧
      t'.Holds default (s.add (s.next canonical raw)) v c := by
  have stored : ∀ e ∈ t.schemas, e.schema ∈ s.entries := fun e mem => by
    rw [← holds.schemas]
    exact List.mem_map_of_mem mem
  have newId : ∀ e ∈ t.schemas, e.id ≠ s.lastId + 1 := by
    intro e mem
    have below := sound.le_last _ (stored e mem)
    change e.id ≤ s.lastId at below
    omega
  have newFingerprint : ∀ e ∈ t.schemas, e.fingerprint ≠ Schema.fingerprint canonical := by
    intro e mem same
    exact sound.withFingerprint?_none absent _ (stored e mem) (congrArg Json.str same)
  refine ⟨_, insertSchema_eq word newId newFingerprint, ?_, ?_, holds.versions, holds.numbers,
    holds.config⟩
  · show (t.schemas ++ [_]).map SchemaRow.schema = s.entries ++ [_]
    rw [List.map_append, holds.schemas]
    rfl
  · intro e mem
    rcases List.mem_append.1 mem with old | new
    · exact holds.ids e old
    · rw [List.mem_singleton.1 new]
      exact word

/-! ## Versions -/

theorem isRowOf_row (scope : Scope) (n : Int) (r : Version) :
    isRowOf scope (.integer n) (row r) = true ↔ r.scope = scope ∧ r.number = n := by
  show (r.scope.render == scope.render && r.number == n) = true ↔ _
  rw [Bool.and_eq_true, beq_iff_eq, beq_iff_eq]
  refine and_congr_left fun _ => ⟨Scope.render_injective, congrArg Scope.render⟩

theorem insertVersion_overflow {draft : VersionDraft} {n : Int} (named : draft.number = .int n)
    (long : isWord n = false) : t.insertVersion draft = .error (.breakdown cellOverflow) := by
  unfold insertVersion
  rw [named, bind_overflow 4 long]
  rfl

/-- A version that is appended next can be written, if its number is a word. -/
theorem Holds.addVersion (holds : t.Holds default s v c) (sound : Versions.Sound s v)
    (scope : Scope) {e : StoredSchema} (stored : e ∈ s.entries)
    (word : isWord (v.maxNumber scope + 1) = true) :
    ∃ t', t.insertVersion (v.next scope e.id).draft = .ok t' ∧
      t'.Holds default s (v.add (v.next scope e.id)) c := by
  obtain ⟨rows, perm, written⟩ := holds.versions
  have free : t.versions.any (isRowOf scope (.integer (v.maxNumber scope + 1))) = false := by
    rw [written, List.any_eq_false]
    intro line mem found
    obtain ⟨r, listed, rfl⟩ := List.mem_map.1 mem
    obtain ⟨same, number⟩ := (isRowOf_row _ _ _).1 found
    have below := sound.le_maxNumber (perm.subset listed)
    rw [same] at below
    omega
  refine ⟨{ t with versions := t.versions ++ [row (v.next scope e.id)] }, ?_, holds.schemas,
    holds.ids, ⟨rows ++ [v.next scope e.id], perm.append_right _, ?_⟩, ?_, holds.config⟩
  · unfold insertVersion Version.draft Versions.next
    dsimp only
    rw [bind_int 4 word, bind_int 5 (holds.ids e stored)]
    show (if t.versions.any (isRowOf scope (.integer (v.maxNumber scope + 1))) then _ else _ :
      Except TableFailure Tables) = _
    rw [free, if_neg Bool.false_ne_true]
    rfl
  · show t.versions ++ [_] = _
    rw [written, List.map_append, List.map_singleton]
  · intro r mem
    rcases List.mem_append.1 mem with old | new
    · exact holds.numbers r old
    · rw [List.mem_singleton.1 new]
      exact word

/-- Marking the row of a number marks the version with that number. -/
theorem markDeleted_eq {rows : List Version} (written : t.versions = rows.map row) (scope : Scope)
    {n : Int} (word : isWord n = true) :
    t.markDeleted scope (.int n) =
      .ok { t with versions := (rows.map (marked scope [n])).map row } := by
  have marking : markRow scope (.integer n) (rows.map row) =
      (rows.map (marked scope [n])).map row := by
    unfold markRow
    rw [List.map_map, List.map_map]
    refine List.map_congr_left fun r _ => ?_
    show (if isRowOf scope (.integer n) (row r) = true then _ else row r) = row (marked scope [n] r)
    unfold marked
    by_cases here : r.scope = scope ∧ r.number = n
    · rw [if_pos ((isRowOf_row _ _ _).2 here), if_pos ⟨here.1, List.mem_singleton.2 here.2⟩]
      rfl
    · rw [if_neg fun found => here ((isRowOf_row _ _ _).1 found),
        if_neg fun found => here ⟨found.1, List.mem_singleton.1 found.2⟩]
  unfold markDeleted
  rw [bind_int 2 word]
  show Except.ok { t with versions := markRow scope (.integer n) t.versions } = _
  rw [written, marking]

/-! ## Modes -/

theorem Holds.upsertConfig (holds : t.Holds default s v c) {key mode : String} {d : Config}
    (kept : d.Kept default (setMode (some key) mode t.config)) :
    ∃ t', t.upsertConfig (.str key) (.str mode) = .ok t' ∧ t'.Holds default s v d :=
  ⟨_, rfl, holds.schemas, holds.ids, holds.versions, holds.numbers, kept⟩

theorem Holds.deleteConfig (holds : t.Holds default s v c) {key : String} {d : Config}
    (kept : d.Kept default (t.config.filter fun r => r.key != some key)) :
    ∃ t', t.deleteConfig (.str key) = .ok t' ∧ t'.Holds default s v d :=
  ⟨_, rfl, holds.schemas, holds.ids, holds.versions, holds.numbers, kept⟩

end

end AvroRegistry.Tables
