import AvroRegistry.Proofs.Compatibility.Fields

/-!
# The check of two records

A pair of records that has been met passes unseen. Any other pair is met and then its fields are
checked, and the writer's fields that no field of the reader reads must have a default. The results
follow those about the fields: what a check without violations has found, when there are no
violations, and when there is a result.
-/

namespace AvroRegistry.Compatibility

open Schema (Form FieldHead)

section

variable {step : Json → Json → String → Checking (List Violation)} {path : String}
  {isError isError' : Bool} {n m : String} {aliases aliases' : List Json}
  {fields fields' : List (FieldHead × Form)} {violations : List Violation} {met met' : Met}

theorem recordName (isError : Bool) (n : String) (aliases : List Json)
    (fields : List (FieldHead × Form)) :
    (((Form.record isError n aliases fields).toJson.get? "name").bind Json.asStr?).getD "" = n := by
  have found : (Form.record isError n aliases fields).toJson.get? "name" = some (.str n) := by
    rw [Schema.toJson_record]
    exact Schema.lookup_recordMembers _ _ _ _ _
  rw [found]
  rfl

theorem recordFields (isError : Bool) (n : String) (aliases : List Json)
    (fields : List (FieldHead × Form)) :
    ((Form.record isError n aliases fields).toJson.item "fields").bind Json.elements =
      .ok (fields.map fieldJson) := by
  have found : (Form.record isError n aliases fields).toJson.item "fields" =
      .ok (.arr (fields.map fieldJson)) := by
    rw [Schema.toJson_record]
    exact Json.item_obj _ _ _ (Schema.lookup_recordMembers _ _ _ _ _)
  rw [found]
  rfl

/-- A pair that has been met passes. -/
theorem checkRecord_met (there : (n, m) ∈ met) :
    checkRecord step (Form.record isError n aliases fields).toJson
      (Form.record isError' m aliases' fields').toJson path met = .ok ([], met) := by
  unfold checkRecord
  rw [Run.bind_of_ok (Run.get_apply met), recordName, recordName]
  show (if met.contains (n, m) then _ else _ : Checking (List Violation)) met = _
  rw [if_pos (List.contains_iff_mem.2 there)]
  rfl

/-- A pair that is new is met, and its fields are checked. -/
theorem checkRecord_new (new : (n, m) ∉ met) (differ : Form.NamesDiffer fields') :
    checkRecord step (Form.record isError n aliases fields).toJson
        (Form.record isError' m aliases' fields').toJson path met =
      (do
        let (violations, matched) ←
          checkFields step path (fields'.map entry) (fields.map fieldJson)
        return violations ++ removedFields path matched (fields'.map entry) :
          Checking (List Violation)) ((n, m) :: met) := by
  unfold checkRecord
  rw [Run.bind_of_ok (Run.get_apply met), recordName, recordName]
  show (if met.contains (n, m) then _ else _ : Checking (List Violation)) met = _
  have other : ¬ met.contains (n, m) = true := fun found => new (List.contains_iff_mem.1 found)
  rw [if_neg other, recordFields, recordFields]
  show (do
    set ((n, m) :: met)
    let writerFields ← pureStep (.ok (fields'.map fieldJson))
    let table ← pureStep (fieldTable [] writerFields)
    let readerFields ← pureStep (.ok (fields.map fieldJson))
    let (violations, matched) ← checkFields step path table readerFields
    return violations ++ removedFields path matched table : Checking (List Violation)) met = _
  rw [Run.bind_of_ok (Run.set_apply ((n, m) :: met) met), pureStep_bind, fieldTable_fields differ,
    pureStep_bind, pureStep_bind]

/-! ## Removed fields -/

theorem removedFields_eq_nil {matched : List Json} {writer : List (FieldHead × Form)} :
    removedFields path matched (writer.map entry) = [] ↔
      ∀ g ∈ writer, g.1.name.isIn matched = true ∨ g.1.default.isSome = true := by
  unfold removedFields
  rw [List.map_eq_nil_iff, List.filter_eq_nil_iff, List.forall_mem_map]
  refine forall₂_congr fun g _ => ?_
  show ¬ ((!g.1.name.isIn matched && ((fieldJson g).get? "default").isNone) = true) ↔ _
  rw [get?_default]
  cases g.1.name.isIn matched <;> cases g.1.default <;> simp

/-- A field of the writer is among the matched names exactly if it is a counterpart. -/
theorem isIn_matched {matched : List Json} {reader writer : List (FieldHead × Form)}
    (differ : Form.NamesDiffer writer)
    (names : ∀ name, name ∈ matched ↔
      ∃ f ∈ reader, ∃ g, counterpart? writer f.1 = some g ∧ name = g.1.name)
    {g : FieldHead × Form} (mem : g ∈ writer) :
    g.1.name.isIn matched = true ↔ ∃ f ∈ reader, counterpart? writer f.1 = some g := by
  unfold Json.isIn
  rw [List.any_eq_true]
  constructor
  · rintro ⟨name, listed, same⟩
    obtain ⟨f, inReader, h, found, rfl⟩ := (names name).1 listed
    obtain rfl := eq_of_same_name differ mem (counterpart?_mem found) same
    exact ⟨f, inReader, found⟩
  · rintro ⟨f, inReader, found⟩
    exact ⟨g.1.name, (names _).2 ⟨f, inReader, g, found, rfl⟩,
      Json.same_refl (differ.keys g mem)⟩

/-- The fields of a new pair pass together exactly if the check of the fields and the removed
fields do. -/
theorem checkRecord_new_eq_ok (new : (n, m) ∉ met) (keys : ∀ f ∈ fields, f.1.name.isKey = true)
    (differ : Form.NamesDiffer fields')
    (ok : checkRecord step (Form.record isError n aliases fields).toJson
      (Form.record isError' m aliases' fields').toJson path met = .ok (violations, met')) :
    ∃ vs names, checkFields step path (fields'.map entry) (fields.map fieldJson) ((n, m) :: met) =
        .ok ((vs, names), met') ∧
      (violations = [] ↔ vs = [] ∧ ∀ g ∈ fields',
        (∃ f ∈ fields, counterpart? fields' f.1 = some g) ∨ g.1.default.isSome = true) := by
  rw [checkRecord_new new differ] at ok
  obtain ⟨⟨vs, names⟩, after, checked, last⟩ := Run.bind_eq_ok.1 ok
  cases last
  refine ⟨vs, names, checked, ?_⟩
  rw [List.append_eq_nil_iff, removedFields_eq_nil]
  have listed := checkFields_names keys checked
  refine and_congr_right fun _ => forall₂_congr fun g mem => or_congr_left ?_
  exact isIn_matched differ listed mem

/-- Whatever a check of one pair of types does to the pairs met is done in a check of a new pair,
which is itself among them. -/
theorem checkRecord_onward {extends_ : Met → Met → Prop} (refl : ∀ met, extends_ met met)
    (trans : ∀ {a b c}, extends_ a b → extends_ b c → extends_ a c) (new : (n, m) ∉ met)
    (keys : ∀ f ∈ fields, f.1.name.isKey = true) (differ : Form.NamesDiffer fields')
    (each : ∀ f ∈ fields, ∀ g ∈ fields', ∀ place a vs b,
      step f.2.toJson g.2.toJson place a = .ok (vs, b) → extends_ a b)
    (ok : checkRecord step (Form.record isError n aliases fields).toJson
      (Form.record isError' m aliases' fields').toJson path met = .ok (violations, met')) :
    extends_ ((n, m) :: met) met' := by
  obtain ⟨vs, names, checked, -⟩ := checkRecord_new_eq_ok new keys differ ok
  exact checkFields_onward refl trans keys each checked

/-- A check of a pair of records breaks down only if the pair is new, and then in the check of a
field and its counterpart, unless a field cannot be looked up. -/
theorem checkRecord_eq_error (keys : ∀ f ∈ fields, f.1.name.isKey = true)
    (differ : Form.NamesDiffer fields') {e : Breakdown}
    (broke : checkRecord step (Form.record isError n aliases fields).toJson
      (Form.record isError' m aliases' fields').toJson path met = .error e) :
    (n, m) ∉ met ∧ (e = .wrongKind ∨ ∃ before f after g result between,
      fields = before ++ f :: after ∧
      checkFields step path (fields'.map entry) (before.map fieldJson) ((n, m) :: met) =
        .ok (result, between) ∧
      counterpart? fields' f.1 = some g ∧
      step f.2.toJson g.2.toJson (typePath path f) between = .error e) := by
  by_cases there : (n, m) ∈ met
  · rw [checkRecord_met there] at broke
    cases broke
  · refine ⟨there, ?_⟩
    rw [checkRecord_new there differ] at broke
    rcases Run.bind_eq_error.1 broke with inside | ⟨result, between, -, last⟩
    · exact checkFields_eq_error keys inside
    · cases last

/-! ## The three results -/

/-- A new pair that passes: its fields are read, in as far as checks that passed tell, and whatever
a passing check of a pair of types does to the pairs met is done along the way. -/
theorem checkRecord_passed {extends_ : Met → Met → Prop} (refl : ∀ met, extends_ met met)
    (trans : ∀ {a b c}, extends_ a b → extends_ b c → extends_ a c) (new : (n, m) ∉ met)
    (keys : ∀ f ∈ fields, f.1.name.isKey = true) (differ : Form.NamesDiffer fields')
    (passed : ∀ f ∈ fields, ∀ g ∈ fields', ∀ place a b,
      step f.2.toJson g.2.toJson place a = .ok ([], b) → extends_ a b)
    (ok : checkRecord step (Form.record isError n aliases fields).toJson
      (Form.record isError' m aliases' fields').toJson path met = .ok ([], met')) :
    extends_ ((n, m) :: met) met' ∧
      FieldsRead (fun a b => ∃ place x y, step a.toJson b.toJson place x = .ok ([], y) ∧
        extends_ y met') fields fields' := by
  obtain ⟨vs, names, checked, agree⟩ := checkRecord_new_eq_ok new keys differ ok
  obtain ⟨rfl, removed⟩ := agree.1 rfl
  obtain ⟨onward, found, missing⟩ := checkFields_passed refl trans keys passed checked
  exact ⟨onward, found, missing, removed⟩

/-- Records whose fields can be read pass, if every pair of types that can be read does. -/
theorem checkRecord_clean {reads : Form → Form → Prop} (keys : ∀ f ∈ fields, f.1.name.isKey = true)
    (differ : Form.NamesDiffer fields') (read : FieldsRead reads fields fields')
    (clean : ∀ f ∈ fields, ∀ g ∈ fields', reads f.2 g.2 → ∀ place a vs b,
      step f.2.toJson g.2.toJson place a = .ok (vs, b) → vs = [])
    (ok : checkRecord step (Form.record isError n aliases fields).toJson
      (Form.record isError' m aliases' fields').toJson path met = .ok (violations, met')) :
    violations = [] := by
  by_cases there : (n, m) ∈ met
  · rw [checkRecord_met there] at ok
    cases ok
    rfl
  · obtain ⟨vs, names, checked, agree⟩ := checkRecord_new_eq_ok there keys differ ok
    refine agree.2 ⟨?_, read.removed⟩
    refine checkFields_clean keys (fun f mem g found => ?_) read.missing checked
    exact clean f mem g (counterpart?_mem found) (read.found f mem g found)

/-- A check of a new pair gives a result if the check of every pair of types in it does. -/
theorem checkRecord_total {invariant : Met → Prop} (new : (n, m) ∉ met)
    (keys : ∀ f ∈ fields, f.1.name.isKey = true) (differ : Form.NamesDiffer fields')
    (fieldAliases : ∀ f ∈ fields, ∀ a ∈ f.1.aliases, a.isKey = true)
    (total : ∀ f ∈ fields, ∀ g ∈ fields', ∀ place a, invariant a →
      ∃ vs b, step f.2.toJson g.2.toJson place a = .ok (vs, b) ∧ invariant b)
    (start : invariant ((n, m) :: met)) :
    ∃ violations met', checkRecord step (Form.record isError n aliases fields).toJson
        (Form.record isError' m aliases' fields').toJson path met = .ok (violations, met') ∧
      invariant met' := by
  obtain ⟨vs, names, after, checked, kept⟩ : ∃ vs names after,
      checkFields step path (fields'.map entry) (fields.map fieldJson) ((n, m) :: met) =
        .ok ((vs, names), after) ∧ invariant after :=
    checkFields_total keys fieldAliases total start
  rw [checkRecord_new new differ, Run.bind_of_ok checked]
  exact ⟨_, after, rfl, kept⟩

end

end AvroRegistry.Compatibility
