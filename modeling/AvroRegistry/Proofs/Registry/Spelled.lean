import AvroRegistry.Proofs.Registry.Faults
import AvroRegistry.Proofs.Registry.Registering
import AvroRegistry.Proofs.Store.Config

/-!
# Registries that agree on a scope

Two registries may have given different ids to the same schemas and still agree on a scope: its
versions have the same numbers, the same marks and schemas with the same canonical texts, and the
same modes apply to it. Putting the canonical texts in the place of the ids (`Registry.spelled`)
makes the versions of the scope equal on both sides, and everything that is looked up for the scope
is then the same but for ids.
-/

namespace AvroRegistry.Registry

open Compatibility (Mode)

/-! ## Versions with texts -/

/-- The canonical text of the schema with an id, null if there is none. -/
def canonicalAt (r : Registry) (id : Json) : Json :=
  match r.schemas.lookUp id with
  | .ok e => e.canonical
  | .error _ => .null

/-- A version with the canonical text of its schema in the place of the id. -/
def spelled (r : Registry) (version : Version) : Version :=
  { version with schemaId := r.canonicalAt version.schemaId }

/-- Two registries agree on a scope. -/
structure Agree (scope : Scope) (r s : Registry) : Prop where
  global : s.config.global = r.config.global
  override : s.config.override? scope = r.config.override? scope
  versions : (s.versions.ofScope scope).map s.spelled = (r.versions.ofScope scope).map r.spelled

section

variable {default : Mode} {r r' s : Registry} {scope : Scope}

theorem Agree.refl (scope : Scope) (r : Registry) : Agree scope r r := ⟨rfl, rfl, rfl⟩

theorem canonicalAt_id (sound : r.schemas.Sound) {e : StoredSchema} (mem : e ∈ r.schemas.entries) :
    r.canonicalAt (.int e.id) = e.canonical := by
  unfold canonicalAt
  rw [sound.lookUp_id mem]

/-- Every version of a sound registry is spelled with the text of its schema. -/
theorem Sound.spelled (sound : r.Sound default) {version : Version}
    (known : version ∈ r.versions.rows) :
    ∃ e ∈ r.schemas.entries, version.schemaId = .int e.id ∧ r.schemaOf version = .ok e ∧
      (r.spelled version).schemaId = e.canonical := by
  obtain ⟨e, stored, points, found⟩ := sound.schemaOf known
  refine ⟨e, stored, points, found, ?_⟩
  show r.canonicalAt version.schemaId = _
  rw [points, canonicalAt_id sound.schemas stored]

/-- Versions are spelled as before when schemas are added. -/
theorem spelled_mono (sound : r.Sound default) (sound' : r'.schemas.Sound)
    (more : r.schemas.entries ⊆ r'.schemas.entries) {version : Version}
    (known : version ∈ r.versions.rows) : r'.spelled version = r.spelled version := by
  obtain ⟨e, stored, points, -, text⟩ := sound.spelled known
  have text' : (r'.spelled version).schemaId = e.canonical := by
    show r'.canonicalAt version.schemaId = _
    rw [points, canonicalAt_id sound' (more stored)]
  unfold Registry.spelled at text text' ⊢
  rw [show r'.canonicalAt version.schemaId = _ from text',
    show r.canonicalAt version.schemaId = _ from text]

theorem spelled_ofScope (sound : r.Sound default) (sound' : r'.schemas.Sound)
    (more : r.schemas.entries ⊆ r'.schemas.entries) (scope : Scope) :
    (r.versions.ofScope scope).map r'.spelled = (r.versions.ofScope scope).map r.spelled :=
  List.map_congr_left fun _ mem =>
    spelled_mono sound sound' more (Versions.mem_ofScope.1 mem).1

/-! ## Looking up versions -/

theorem Agree.effective (agree : Agree scope r s) :
    s.config.effective scope = r.config.effective scope := by
  unfold Config.effective
  rw [agree.override, agree.global]

theorem Agree.history (agree : Agree scope r s) :
    (s.versions.history scope).map s.spelled = (r.versions.history scope).map r.spelled := by
  have live := congrArg (List.filter fun version => !version.deleted) agree.versions
  rw [List.filter_map, List.filter_map] at live
  exact live

theorem Agree.numbers (agree : Agree scope r s) :
    (s.versions.history scope).map (·.number) = (r.versions.history scope).map (·.number) := by
  have same := congrArg (List.map (·.number)) agree.history
  rw [List.map_map, List.map_map] at same
  exact same

theorem Agree.history_isEmpty (agree : Agree scope r s) :
    (s.versions.history scope).isEmpty = (r.versions.history scope).isEmpty := by
  have same := congrArg List.isEmpty agree.history
  rw [List.isEmpty_map, List.isEmpty_map] at same
  exact same

theorem Agree.liveNumbers (agree : Agree scope r s) :
    s.versions.liveNumbers scope = r.versions.liveNumbers scope := by
  have same := agree.numbers
  unfold Versions.liveNumbers
  cases left : s.versions.history scope with
  | nil =>
    rw [left] at same
    rw [List.map_eq_nil_iff.1 same.symm]
  | cons a later =>
    cases right : r.versions.history scope with
    | nil =>
      rw [left, right] at same
      cases same
    | cons b others =>
      rw [left, right] at same
      exact congrArg Except.ok same

theorem Agree.maxNumber (agree : Agree scope r s) :
    s.versions.maxNumber scope = r.versions.maxNumber scope := by
  have last : ∀ t : Registry, t.versions.maxNumber scope =
      ((((t.versions.ofScope scope).map t.spelled).getLast?).map (·.number)).getD 0 := by
    intro t
    unfold Versions.maxNumber
    rw [List.getLast?_map]
    cases (t.versions.ofScope scope).getLast? <;> rfl
  rw [last, last, agree.versions]

theorem Agree.select? (agree : Agree scope r s) (selector : Selector) :
    (s.versions.select? scope selector).map s.spelled =
      (r.versions.select? scope selector).map r.spelled := by
  cases selector with
  | latest =>
    show ((s.versions.history scope).getLast?).map _ = ((r.versions.history scope).getLast?).map _
    rw [← List.getLast?_map, ← List.getLast?_map, agree.history]
  | number n =>
    have found := congrArg (fun versions =>
      (versions.find? fun version => version.number == n).filter fun version => !version.deleted)
      agree.versions
    rw [List.find?_map, List.find?_map, Option.filter_map, Option.filter_map] at found
    exact found

/-- The version that a selector means is missing on both sides, or there on both and spelled the
same. -/
theorem Agree.get (agree : Agree scope r s) (selector : Selector) :
    (∃ failure, r.versions.get scope selector = .error failure ∧
      s.versions.get scope selector = .error failure) ∨
      ∃ found found', r.versions.get scope selector = .ok found ∧
        s.versions.get scope selector = .ok found' ∧ s.spelled found' = r.spelled found := by
  have same := agree.select? selector
  unfold Versions.get
  cases here : r.versions.select? scope selector with
  | none =>
    rw [here, Option.map_none, Option.map_eq_none_iff] at same
    rw [same]
    exact .inl ⟨_, rfl, rfl⟩
  | some found =>
    rw [here, Option.map_some, Option.map_eq_some_iff] at same
    obtain ⟨found', there, spelled⟩ := same
    rw [there]
    exact .inr ⟨found, found', rfl, rfl, spelled⟩

/-! ## Schemas held against -/

theorem formOf_congr {e e' : StoredSchema} (same : e'.canonical = e.canonical) :
    Schemas.formOf e' = Schemas.formOf e := by
  unfold Schemas.formOf
  rw [same]

theorem formsOf_congr (left : r.Sound default) (right : s.Sound default) :
    ∀ {against against' : List Version}, (∀ version ∈ against, version ∈ r.versions.rows) →
      (∀ version ∈ against', version ∈ s.versions.rows) →
      against'.map s.spelled = against.map r.spelled → s.formsOf against' = r.formsOf against := by
  intro against
  induction against with
  | nil =>
    intro against' _ _ same
    rw [List.map_nil, List.map_eq_nil_iff] at same
    rw [same]
    rfl
  | cons version rest ih =>
    intro against' known known' same
    rw [List.map_cons, List.map_eq_cons_iff] at same
    obtain ⟨version', rest', rfl, first, others⟩ := same
    obtain ⟨e, -, -, found, text⟩ := left.spelled (known version List.mem_cons_self)
    obtain ⟨e', -, -, found', text'⟩ := right.spelled (known' version' List.mem_cons_self)
    have canonical : e'.canonical = e.canonical := by
      rw [← text, ← text', first]
    have form : s.formOf version' = r.formOf version := by
      unfold Registry.formOf
      rw [found, found']
      exact formOf_congr canonical
    unfold Registry.formsOf
    rw [form, ih (fun v mem => known v (List.mem_cons_of_mem _ mem))
      (fun v mem => known' v (List.mem_cons_of_mem _ mem)) others]

theorem violations_congr (left : r.Sound default) (right : s.Sound default)
    {against against' : List Version} (known : ∀ version ∈ against, version ∈ r.versions.rows)
    (known' : ∀ version ∈ against', version ∈ s.versions.rows)
    (same : against'.map s.spelled = against.map r.spelled) (candidate : Schema.Canonical)
    (mode : Mode) : s.violations candidate against' mode = r.violations candidate against mode := by
  unfold Registry.violations
  rw [formsOf_congr left right known known' same]

theorem map_references {α : Type} (mode : Mode) (history : List Version) (f : Version → α) :
    (references mode history).map f =
      if mode.isTransitive then history.map f
      else (history.map f).drop ((history.map f).length - 1) := by
  unfold references
  split
  · rfl
  · rw [List.map_drop, List.length_map]

theorem Agree.references (agree : Agree scope r s) (mode : Mode) :
    (references mode (s.versions.history scope)).map s.spelled =
      (references mode (r.versions.history scope)).map r.spelled := by
  rw [map_references, map_references, agree.history]

/-- What a schema is tested against is missing on both sides, or there on both and spelled the
same. -/
theorem Agree.testedAgainst (agree : Agree scope r s) (selector : Selector) (mode : Mode) :
    (∃ failure, r.testedAgainst scope selector mode = .error failure ∧
      s.testedAgainst scope selector mode = .error failure) ∨
      ∃ against against', r.testedAgainst scope selector mode = .ok against ∧
        s.testedAgainst scope selector mode = .ok against' ∧
        against'.map s.spelled = against.map r.spelled := by
  cases selector with
  | latest =>
    have same := agree.references mode
    have empty := agree.history_isEmpty
    unfold Registry.testedAgainst
    cases here : r.versions.history scope with
    | nil =>
      rw [here, List.isEmpty_nil, List.isEmpty_iff] at empty
      rw [empty]
      exact .inl ⟨_, rfl, rfl⟩
    | cons version rest =>
      cases there : s.versions.history scope with
      | nil =>
        rw [here, there] at empty
        cases empty
      | cons version' rest' =>
        rw [here, there] at same
        exact .inr ⟨_, _, rfl, rfl, same⟩
  | number n =>
    unfold Registry.testedAgainst
    dsimp only
    rcases agree.get (.number n) with
      ⟨failure, here, there⟩ | ⟨found, found', here, there, spelled⟩
    · rw [here, there]
      exact .inl ⟨_, rfl, rfl⟩
    · rw [here, there]
      exact .inr ⟨_, _, rfl, rfl, congrArg (fun version => [version]) spelled⟩

/-! ## Live schemas -/

/-- Whether a version that is spelled out holds a text with a fingerprint. -/
def holdsText (fingerprint : String) (version : Version) : Bool :=
  match version.schemaId with
  | .str text => Schema.fingerprint text == fingerprint
  | _ => false

/-- A version of a sound registry holds the text of the schema that it points at. -/
theorem Sound.holdsText_iff (sound : r.Sound default) {version : Version} {e : StoredSchema}
    (points : version.schemaId = .int e.id) (stored : e ∈ r.schemas.entries)
    (fingerprint : String) :
    holdsText fingerprint (r.spelled version) = true ↔ e.fingerprint = .str fingerprint := by
  obtain ⟨text, raw, canonical, -, address⟩ := sound.schemas.addressed e stored
  have spelled : (r.spelled version).schemaId = .str text := by
    show r.canonicalAt version.schemaId = _
    rw [points, canonicalAt_id sound.schemas stored, canonical]
  unfold holdsText
  rw [spelled, address]
  simp

/-- What is live is the first live version of the scope that holds a text with the fingerprint. -/
theorem Sound.live?_eq (sound : r.Sound default) (scope : Scope) (fingerprint : String) :
    (r.live? scope fingerprint).map (fun info => (info.number, info.schema.canonical)) =
      (((r.versions.history scope).map r.spelled).find? (holdsText fingerprint)).map
        fun version => (version.number, version.schemaId) := by
  have rows : ((r.versions.history scope).map r.spelled).find? (holdsText fingerprint) =
      (((r.versions.ofScope scope).filter fun version =>
        holdsText fingerprint (r.spelled version) && !version.deleted).head?).map r.spelled := by
    unfold Versions.history
    rw [List.find?_map, ← List.head?_filter, List.filter_filter]
    rfl
  rw [rows, Option.map_map]
  cases known : r.schemas.withFingerprint? (.str fingerprint) with
  | none =>
    have absent : (r.versions.ofScope scope).filter (fun version =>
        holdsText fingerprint (r.spelled version) && !version.deleted) = [] := by
      refine List.filter_eq_nil_iff.2 fun version mem holds => ?_
      obtain ⟨e, stored, points⟩ := sound.versions.points version (Versions.mem_ofScope.1 mem).1
      exact sound.schemas.withFingerprint?_none known e stored
        ((sound.holdsText_iff points stored fingerprint).1 (Bool.and_eq_true_iff.1 holds).1)
    have dead : r.live? scope fingerprint = none := by
      unfold live?
      rw [known]
      rfl
    rw [absent, dead]
    rfl
  | some e =>
    obtain ⟨stored, address⟩ := sound.schemas.withFingerprint?_some known
    have same : (r.versions.ofScope scope).filter (fun version =>
        holdsText fingerprint (r.spelled version) && !version.deleted) =
        (r.versions.ofScope scope).filter fun version =>
          version.schemaId.equal (.int e.id) && !version.deleted := by
      refine List.filter_congr fun version mem => ?_
      obtain ⟨e', stored', points⟩ := sound.versions.points version (Versions.mem_ofScope.1 mem).1
      congr 1
      rw [Bool.eq_iff_iff, sound.holdsText_iff points stored' fingerprint, points,
        Versions.equal_int, beq_iff_eq]
      constructor
      · intro address'
        rw [List.inj_on_of_nodup_map sound.schemas.differ stored' stored
          (address'.trans address.symm)]
      · intro id
        have found := sound.schemas.find?_id stored'
        rw [id, sound.schemas.find?_id stored] at found
        cases found
        exact address
    rw [live?_of_known known, same, Option.map_map, List.head?_filter]
    show ((r.versions.holding? scope (.int e.id)).map _) =
      (r.versions.holding? scope (.int e.id)).map _
    refine Option.map_congr fun version found => ?_
    obtain ⟨listed, holds, -⟩ := Versions.holding?_some found
    obtain ⟨e', stored', points, -, text⟩ := sound.spelled (Versions.mem_ofScope.1 listed).1
    rw [points, Versions.equal_int, beq_iff_eq] at holds
    have id := sound.schemas.find?_id stored'
    rw [holds, sound.schemas.find?_id stored] at id
    cases id
    exact congrArg (Prod.mk version.number) text.symm

/-- A schema is live on neither side, or on both, with one number and one canonical text. -/
theorem Agree.live? (agree : Agree scope r s) (left : r.Sound default) (right : s.Sound default)
    (fingerprint : String) :
    (r.live? scope fingerprint = none ∧ s.live? scope fingerprint = none) ∨
      ∃ info info', r.live? scope fingerprint = some info ∧
        s.live? scope fingerprint = some info' ∧ info'.number = info.number ∧
        info'.schema.canonical = info.schema.canonical := by
  have same := right.live?_eq scope fingerprint
  rw [agree.history, ← left.live?_eq scope fingerprint] at same
  cases here : r.live? scope fingerprint with
  | none =>
    rw [here, Option.map_none, Option.map_eq_none_iff] at same
    exact .inl ⟨rfl, same⟩
  | some info =>
    rw [here, Option.map_some, Option.map_eq_some_iff] at same
    obtain ⟨info', there, pair⟩ := same
    obtain ⟨number, canonical⟩ := Prod.mk.inj pair
    exact .inr ⟨info, info', rfl, there, number, canonical⟩

end

end AvroRegistry.Registry
