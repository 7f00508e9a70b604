import AvroRegistry.Proofs.Json.Values
import AvroRegistry.Store.Schemas
import Mathlib.Data.List.Nodup

/-!
# Sound stores of schemas

What is true of every store of schemas that a registry fills: ids go up, the last id handed out is
the highest one, each schema stands under the fingerprint of its text, and no two schemas stand
under one fingerprint. Ids and fingerprints therefore name the same schemas, adding a schema whose
fingerprint is new keeps all of this, and reading a file back comes to the store that was written.
-/

namespace AvroRegistry.Schemas

/-- The highest id of some schemas, zero if there are none. -/
def highest (entries : List StoredSchema) : Int := entries.foldl (fun m e => max m e.id) 0

/-- A store of schemas as a registry fills it. -/
structure Sound (s : Schemas) : Prop where
  ascending : s.entries.Pairwise fun a b => a.id < b.id
  last : s.lastId = highest s.entries
  addressed : ∀ e ∈ s.entries, ∃ canonical raw, e.canonical = .str canonical ∧ e.raw = .str raw ∧
    e.fingerprint = .str (Schema.fingerprint canonical)
  differ : (s.entries.map (·.fingerprint)).Nodup

theorem sound_empty : Sound {} := ⟨List.Pairwise.nil, rfl, by simp, List.nodup_nil⟩

/-! ## Ids -/

theorem le_foldl_max (entries : List StoredSchema) (start : Int) :
    start ≤ entries.foldl (fun m e => max m e.id) start ∧
      ∀ e ∈ entries, e.id ≤ entries.foldl (fun m e => max m e.id) start := by
  induction entries generalizing start with
  | nil => simp
  | cons first rest ih =>
    obtain ⟨above, each⟩ := ih (max start first.id)
    rw [List.foldl_cons]
    refine ⟨by omega, fun e mem => ?_⟩
    rcases List.mem_cons.1 mem with rfl | later
    · omega
    · exact each e later

variable {s : Schemas}

theorem Sound.le_last (sound : s.Sound) : ∀ e ∈ s.entries, e.id ≤ s.lastId := by
  rw [sound.last]
  exact (le_foldl_max s.entries 0).2

theorem Sound.last_nonneg (sound : s.Sound) : 0 ≤ s.lastId := by
  rw [sound.last]
  exact (le_foldl_max s.entries 0).1

/-- A schema is found under its id. -/
theorem Sound.find?_id (sound : s.Sound) {e : StoredSchema} (mem : e ∈ s.entries) :
    s.find? e.id = some e := by
  unfold find?
  have ascending := sound.ascending
  generalize s.entries = entries at mem ascending
  induction entries with
  | nil => cases mem
  | cons first rest ih =>
    obtain ⟨below, later⟩ := List.pairwise_cons.1 ascending
    rcases List.mem_cons.1 mem with rfl | mem
    · exact List.find?_cons_of_pos (by simp)
    · have differ : (first.id == e.id) = false := by
        have := below e mem
        rw [beq_eq_false_iff_ne]
        omega
      rw [List.find?_cons, differ]
      exact ih mem later

theorem Sound.lookUp_id (sound : s.Sound) {e : StoredSchema} (mem : e ∈ s.entries) :
    s.lookUp (.int e.id) = .ok e := by
  have isKey : (Json.int e.id).isKey = true := rfl
  have found : (Json.int e.id).keyInt?.bind s.find? = some e := sound.find?_id mem
  unfold lookUp
  rw [if_pos isKey, found]

/-! ## Fingerprints -/

theorem Sound.same_fingerprint (sound : s.Sound) {e : StoredSchema} (mem : e ∈ s.entries)
    (fingerprint : String) :
    e.fingerprint.same (.str fingerprint) = true ↔ e.fingerprint = .str fingerprint := by
  obtain ⟨canonical, raw, -, -, addressed⟩ := sound.addressed e mem
  rw [addressed, Json.same_str_iff]
  exact eq_comm

theorem Sound.withFingerprint?_some (sound : s.Sound) {fingerprint : String} {e : StoredSchema}
    (found : s.withFingerprint? (.str fingerprint) = some e) :
    e ∈ s.entries ∧ e.fingerprint = .str fingerprint := by
  have mem := List.mem_of_find?_eq_some found
  have same : e.fingerprint.same (.str fingerprint) = true := by simpa using List.find?_some found
  exact ⟨mem, (sound.same_fingerprint mem fingerprint).1 same⟩

theorem Sound.withFingerprint?_none (sound : s.Sound) {fingerprint : String}
    (absent : s.withFingerprint? (.str fingerprint) = none) :
    ∀ e ∈ s.entries, e.fingerprint ≠ .str fingerprint := by
  intro e mem same
  have other := List.find?_eq_none.1 absent e mem
  exact other ((sound.same_fingerprint mem fingerprint).2 same)

/-- A schema is found under its fingerprint. -/
theorem Sound.withFingerprint?_mem (sound : s.Sound) {e : StoredSchema} (mem : e ∈ s.entries)
    {fingerprint : String} (address : e.fingerprint = .str fingerprint) :
    s.withFingerprint? (.str fingerprint) = some e := by
  cases first : s.withFingerprint? (.str fingerprint) with
  | none => exact absurd address (sound.withFingerprint?_none first e mem)
  | some other =>
    obtain ⟨listed, same⟩ := sound.withFingerprint?_some first
    rw [List.inj_on_of_nodup_map sound.differ listed mem (same.trans address.symm)]

/-- Two schemas with one text are one schema. -/
theorem Sound.eq_of_canonical (sound : s.Sound) {a b : StoredSchema} (ha : a ∈ s.entries)
    (hb : b ∈ s.entries) (same : a.canonical = b.canonical) : a = b := by
  obtain ⟨text, _, canonical, -, fingerprint⟩ := sound.addressed a ha
  obtain ⟨text', _, canonical', -, fingerprint'⟩ := sound.addressed b hb
  rw [canonical, canonical'] at same
  cases same
  exact List.inj_on_of_nodup_map sound.differ ha hb (fingerprint.trans fingerprint'.symm)

/-! ## Adding -/

/-- The schema that a text which is new is stored as. -/
def next (s : Schemas) (canonical raw : String) : StoredSchema :=
  ⟨s.lastId + 1, .str (Schema.fingerprint canonical), .str canonical, .str raw⟩

/-- A store stays sound when a schema is added whose fingerprint is new. -/
theorem Sound.add (sound : s.Sound) {canonical : String} (raw : String)
    (absent : s.withFingerprint? (.str (Schema.fingerprint canonical)) = none) :
    (s.add (s.next canonical raw)).Sound where
  ascending := by
    refine List.pairwise_append.2 ⟨sound.ascending, List.pairwise_singleton _ _, ?_⟩
    intro a ha b hb
    rw [List.mem_singleton.1 hb]
    have := sound.le_last a ha
    show a.id < s.lastId + 1
    omega
  last := by
    show max s.lastId _ = highest (s.entries ++ [_])
    unfold highest
    rw [List.foldl_append, ← highest, ← sound.last]
    rfl
  addressed := by
    intro e mem
    rcases List.mem_append.1 mem with old | new
    · exact sound.addressed e old
    · rw [List.mem_singleton.1 new]
      exact ⟨canonical, raw, rfl, rfl, rfl⟩
  differ := by
    show ((s.entries ++ [_]).map _).Nodup
    rw [List.map_append, List.nodup_append]
    refine ⟨sound.differ, List.nodup_singleton _, ?_⟩
    intro f hf g hg same
    obtain ⟨e, mem, rfl⟩ := List.mem_map.1 hf
    rw [List.map_singleton, List.mem_singleton] at hg
    exact sound.withFingerprint?_none absent e mem (same.trans hg)

/-! ## Reading back -/

/-- Schemas of which no two stand under one fingerprint are read back in their order. -/
theorem recoverFrom_eq (s : Schemas) (rest : List StoredSchema)
    (texts : ∀ e ∈ s.entries ++ rest, ∃ f, e.fingerprint = .str f)
    (differ : ((s.entries ++ rest).map (·.fingerprint)).Nodup) :
    recoverFrom s rest = .ok ⟨s.entries ++ rest, rest.foldl (fun m e => max m e.id) s.lastId⟩ := by
  induction rest generalizing s with
  | nil =>
    rw [List.append_nil]
    rfl
  | cons e rest ih =>
    have fresh : s.withFingerprint? e.fingerprint = none := by
      refine List.find?_eq_none.2 fun d mem same => ?_
      obtain ⟨f, text⟩ := texts d (List.mem_append_left _ mem)
      rw [text, Json.same_str_iff, ← text] at same
      rw [List.map_append, List.nodup_append] at differ
      exact differ.2.2 _ (List.mem_map_of_mem mem) _ (List.mem_map_of_mem List.mem_cons_self)
        same.symm
    have next : s.entries ++ e :: rest = (s.add e).entries ++ rest := by
      show _ = (s.entries ++ [e]) ++ rest
      rw [List.append_assoc]
      rfl
    rw [next] at texts differ
    rw [recoverFrom, fresh, next]
    exact ih (s.add e) texts differ

/-- A sound store is read back from its schemas. -/
theorem Sound.recoverFrom_entries (sound : s.Sound) : recoverFrom {} s.entries = .ok s := by
  have texts : ∀ e ∈ s.entries, ∃ f, e.fingerprint = .str f := by
    intro e mem
    obtain ⟨canonical, raw, -, -, addressed⟩ := sound.addressed e mem
    exact ⟨_, addressed⟩
  have read := recoverFrom_eq {} s.entries texts sound.differ
  have last : s.entries.foldl (fun m e => max m e.id) 0 = s.lastId := sound.last.symm
  rw [read]
  show Except.ok (Schemas.mk s.entries (s.entries.foldl (fun m e => max m e.id) 0)) = _
  rw [last]

end AvroRegistry.Schemas
