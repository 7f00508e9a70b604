import AvroRegistry.Proofs.Compatibility.Pairs

/-!
# The check on the fields of two records

The fields of a writer are put into a table by name, and those of a reader look up their
counterparts in it. Names differ within a record, so the table is the list of fields itself and a
look-up is `counterpart?`. The three results about `checkFields` say what follows from a check
without violations, when there are none, and when there is a result at all, each from the same fact
about the check of a pair of types.
-/

namespace AvroRegistry.Compatibility

open Schema (Form FieldHead)

/-! ## The table of fields -/

/-- The value of a field. -/
def fieldJson (f : FieldHead × Form) : Json := f.1.toJson f.2.toJson

/-- The entry of a field in the table. -/
def entry (f : FieldHead × Form) : Json × Json := (f.1.name, fieldJson f)

theorem item_fieldJson {f : FieldHead × Form} {key : String} {v : Json}
    (found : Json.lookup key (Schema.fieldMembers f.1 f.2.toJson) = some v) :
    (fieldJson f).item key = .ok v :=
  Json.item_obj _ _ _ found

theorem item_name (f : FieldHead × Form) : (fieldJson f).item "name" = .ok f.1.name :=
  item_fieldJson (Schema.lookup_fieldMembers _ _ _)

theorem item_type (f : FieldHead × Form) : (fieldJson f).item "type" = .ok f.2.toJson :=
  item_fieldJson (Schema.lookup_fieldMembers _ _ _)

theorem get?_default (f : FieldHead × Form) : (fieldJson f).get? "default" = f.1.default :=
  Schema.lookup_fieldMembers _ _ _

theorem get?_aliases (f : FieldHead × Form) :
    ((fieldJson f).get? "aliases").getD (.arr []) = .arr f.1.aliases := by
  have found : Json.lookup "aliases" (Schema.fieldMembers f.1 f.2.toJson) =
      if f.1.aliases ≠ [] then some (.arr f.1.aliases) else none := by
    simpa using Schema.lookup_fieldMembers "aliases" f.1 f.2.toJson
  exact listed_aliases found

theorem setField_fresh {name field : Json} {table : FieldTable}
    (fresh : ∀ e ∈ table, e.1.same name = false) :
    setField name field table = table ++ [(name, field)] := by
  induction table with
  | nil => rfl
  | cons e rest ih =>
    obtain ⟨n, f⟩ := e
    rw [setField, fresh (n, f) List.mem_cons_self, if_neg Bool.false_ne_true,
      ih fun e mem => fresh e (List.mem_cons_of_mem _ mem), List.cons_append]

/-- Fields with different names are entered one after the other. -/
theorem fieldTable_append {done fields : List (FieldHead × Form)}
    (differ : Form.NamesDiffer (done ++ fields)) :
    fieldTable (done.map entry) (fields.map fieldJson) = .ok ((done ++ fields).map entry) := by
  induction fields generalizing done with
  | nil => rw [List.map_nil, fieldTable, List.append_nil]
  | cons f rest ih =>
    have key : f.1.name.isKey = true :=
      differ.keys f (List.mem_append_right _ List.mem_cons_self)
    have fresh : ∀ e ∈ done.map entry, e.1.same f.1.name = false := by
      intro e mem
      obtain ⟨g, earlier, rfl⟩ := List.mem_map.1 mem
      exact (List.pairwise_append.1 differ.differ).2.2 g earlier f List.mem_cons_self
    have next : done ++ f :: rest = done ++ [f] ++ rest := by simp
    rw [List.map_cons, fieldTable, item_name]
    dsimp only
    rw [if_pos key, setField_fresh fresh, next]
    rw [next] at differ
    have entered : done.map entry ++ [(f.1.name, fieldJson f)] = (done ++ [f]).map entry := by
      rw [List.map_append]
      rfl
    rw [entered]
    exact ih differ

theorem fieldTable_fields {fields : List (FieldHead × Form)} (differ : Form.NamesDiffer fields) :
    fieldTable [] (fields.map fieldJson) = .ok (fields.map entry) :=
  fieldTable_append (show Form.NamesDiffer ([] ++ fields) from differ)

/-- Two fields of a record with one name are one field. -/
theorem eq_of_same_name {fields : List (FieldHead × Form)} (differ : Form.NamesDiffer fields)
    {f g : FieldHead × Form} (hf : f ∈ fields) (hg : g ∈ fields)
    (same : f.1.name.same g.1.name = true) : f = g := by
  obtain ⟨keys, differ⟩ := differ
  induction fields with
  | nil => cases hf
  | cons h rest ih =>
    obtain ⟨apart, differ⟩ := List.pairwise_cons.1 differ
    rcases List.mem_cons.1 hf with rfl | later
    · rcases List.mem_cons.1 hg with rfl | later'
      · rfl
      · rw [apart g later'] at same
        cases same
    · rcases List.mem_cons.1 hg with rfl | later'
      · have key := keys f (List.mem_cons_of_mem _ later)
        rw [Json.same_comm key (keys g List.mem_cons_self), apart f later] at same
        cases same
      · exact ih later later' (fun k mem => keys k (List.mem_cons_of_mem _ mem)) differ

/-! ## Counterparts -/

section

variable {writer : List (FieldHead × Form)}

theorem findField_entries (name : Json) :
    findField name (writer.map entry) = (fieldNamed writer name).map fieldJson := by
  unfold findField fieldNamed
  rw [List.find?_map, Option.map_map]
  rfl

theorem counterpart?_mem {head : FieldHead} {g : FieldHead × Form}
    (found : counterpart? writer head = some g) : g ∈ writer := by
  unfold counterpart? at found
  rcases Option.or_eq_some_iff.1 found with named | ⟨-, aliased⟩
  · exact List.mem_of_find?_eq_some named
  · obtain ⟨a, -, named⟩ := List.exists_of_findSome?_eq_some aliased
    exact List.mem_of_find?_eq_some named

theorem findByAlias_eq_ok {aliases : List Json} {found : Option Json}
    (ok : findByAlias (writer.map entry) aliases = .ok found) :
    found = (aliases.findSome? (fieldNamed writer)).map fieldJson := by
  induction aliases with
  | nil =>
    cases ok
    rfl
  | cons a rest ih =>
    rw [findByAlias, findField_entries] at ok
    rw [List.findSome?_cons]
    split at ok
    · cases ok
    · cases named : fieldNamed writer a with
      | none =>
        rw [named] at ok
        exact ih ok
      | some g =>
        rw [named] at ok
        cases ok
        rfl

theorem findByAlias_total {aliases : List Json} (keys : ∀ a ∈ aliases, a.isKey = true) :
    ∃ found, findByAlias (writer.map entry) aliases = .ok found := by
  induction aliases with
  | nil => exact ⟨none, rfl⟩
  | cons a rest ih =>
    rw [findByAlias, keys a List.mem_cons_self, findField_entries]
    cases fieldNamed writer a with
    | none => exact ih fun b mem => keys b (List.mem_cons_of_mem _ mem)
    | some g => exact ⟨_, rfl⟩

/-- A look-up in the table, where it comes to something, finds the counterpart. -/
theorem counterpart_eq (f : FieldHead × Form) (key : f.1.name.isKey = true) :
    counterpart (writer.map entry) (fieldJson f) =
      match fieldNamed writer f.1.name with
      | some g => .ok (some (fieldJson g))
      | none => findByAlias (writer.map entry) f.1.aliases := by
  have checked : f.1.name.requireKey = .ok () := by
    unfold Json.requireKey
    rw [if_pos key]
  unfold counterpart
  rw [item_name, get?_aliases]
  show (do f.1.name.requireKey; _ : Except Breakdown (Option Json)) = _
  rw [checked, findField_entries]
  cases fieldNamed writer f.1.name with
  | some g => rfl
  | none =>
    show (do return ← findByAlias (writer.map entry) f.1.aliases : Except Breakdown _) = _
    cases findByAlias (writer.map entry) f.1.aliases <;> rfl

theorem counterpart_eq_ok {f : FieldHead × Form} (key : f.1.name.isKey = true)
    {found : Option Json} (ok : counterpart (writer.map entry) (fieldJson f) = .ok found) :
    found = (counterpart? writer f.1).map fieldJson := by
  rw [counterpart_eq f key] at ok
  unfold counterpart?
  cases named : fieldNamed writer f.1.name with
  | some g =>
    rw [named] at ok
    cases ok
    rfl
  | none =>
    rw [named] at ok
    exact findByAlias_eq_ok ok

theorem findByAlias_eq_error {aliases : List Json} {e : Breakdown}
    (broke : findByAlias (writer.map entry) aliases = .error e) : e = .wrongKind := by
  induction aliases with
  | nil => cases broke
  | cons a rest ih =>
    rw [findByAlias, findField_entries] at broke
    split at broke
    · cases broke
      rfl
    · cases named : fieldNamed writer a with
      | none =>
        rw [named] at broke
        exact ih broke
      | some g =>
        rw [named] at broke
        cases broke

/-- A look-up in the table breaks down only on an alias that cannot be looked up. -/
theorem counterpart_eq_error {f : FieldHead × Form} (key : f.1.name.isKey = true) {e : Breakdown}
    (broke : counterpart (writer.map entry) (fieldJson f) = .error e) : e = .wrongKind := by
  rw [counterpart_eq f key] at broke
  cases named : fieldNamed writer f.1.name with
  | some g =>
    rw [named] at broke
    cases broke
  | none =>
    rw [named] at broke
    exact findByAlias_eq_error broke

theorem counterpart_total {f : FieldHead × Form} (key : f.1.name.isKey = true)
    (keys : ∀ a ∈ f.1.aliases, a.isKey = true) :
    ∃ found, counterpart (writer.map entry) (fieldJson f) = .ok found := by
  rw [counterpart_eq f key]
  cases fieldNamed writer f.1.name with
  | some g => exact ⟨_, rfl⟩
  | none => exact findByAlias_total keys

end

/-! ## The check of the fields -/

section

variable {step : Json → Json → String → Checking (List Violation)} {path : String}
  {reader writer : List (FieldHead × Form)} {violations : List Violation} {names : List Json}
  {met met' : Met}

/-- What a check of a first field and others, where it gives a result, did with the first one. -/
theorem checkFields_cons_eq_ok {f : FieldHead × Form} {rest : List Json}
    (key : f.1.name.isKey = true)
    (ok : checkFields step path (writer.map entry) (fieldJson f :: rest) met =
      .ok ((violations, names), met')) :
    (∃ g place first between others names', counterpart? writer f.1 = some g ∧
      step f.2.toJson g.2.toJson place met = .ok (first, between) ∧
      checkFields step path (writer.map entry) rest between = .ok ((others, names'), met') ∧
      violations = first ++ others ∧ names = g.1.name :: names') ∨
    (counterpart? writer f.1 = none ∧ ∃ others,
      checkFields step path (writer.map entry) rest met = .ok ((others, names), met') ∧
      (violations = [] ↔ f.1.default.isSome = true ∧ others = [])) := by
  rw [checkFields, item_name, pureStep_bind] at ok
  obtain ⟨found, start, lookUp, rest_ok⟩ := Run.bind_eq_ok.1 ok
  obtain ⟨looked, rfl⟩ := pureStep_eq_ok.1 lookUp
  obtain rfl := counterpart_eq_ok key looked
  cases named : counterpart? writer f.1 with
  | some g =>
    rw [named] at rest_ok
    dsimp only [Option.map_some] at rest_ok
    rw [item_name, pureStep_bind, item_type, pureStep_bind, item_type, pureStep_bind] at rest_ok
    obtain ⟨first, between, checked, rest_ok⟩ := Run.bind_eq_ok.1 rest_ok
    obtain ⟨⟨others, names'⟩, after, checkedRest, last⟩ := Run.bind_eq_ok.1 rest_ok
    cases last
    exact .inl ⟨g, _, first, between, others, names', rfl, checked, checkedRest, rfl, rfl⟩
  | none =>
    rw [named] at rest_ok
    dsimp only [Option.map_none] at rest_ok
    obtain ⟨⟨others, names'⟩, after, checkedRest, last⟩ := Run.bind_eq_ok.1 rest_ok
    rw [get?_default] at last
    dsimp only at last
    split at last
    · next fallback =>
      cases last
      exact .inr ⟨rfl, _, checkedRest, by simp [fallback]⟩
    · next required =>
      cases last
      exact .inr ⟨rfl, _, checkedRest, by simp [required]⟩

/-- The names that a check of fields gives are those of the counterparts. -/
theorem checkFields_names (keys : ∀ f ∈ reader, f.1.name.isKey = true)
    (ok : checkFields step path (writer.map entry) (reader.map fieldJson) met =
      .ok ((violations, names), met')) (name : Json) :
    name ∈ names ↔ ∃ f ∈ reader, ∃ g, counterpart? writer f.1 = some g ∧ name = g.1.name := by
  induction reader generalizing violations names met with
  | nil =>
    cases ok
    simp
  | cons f rest ih =>
    have later := fun g (mem : g ∈ rest) => keys g (List.mem_cons_of_mem _ mem)
    rw [List.map_cons] at ok
    rcases checkFields_cons_eq_ok (keys f List.mem_cons_self) ok with
      ⟨g, place, first, between, others, names', named, -, okRest, -, rfl⟩ |
      ⟨named, others, okRest, -⟩
    · rw [List.mem_cons, ih later okRest]
      constructor
      · rintro (rfl | ⟨h, mem, k, found, rfl⟩)
        · exact ⟨f, List.mem_cons_self, g, named, rfl⟩
        · exact ⟨h, List.mem_cons_of_mem _ mem, k, found, rfl⟩
      · rintro ⟨h, mem, k, found, rfl⟩
        rcases List.mem_cons.1 mem with rfl | mem
        · rw [named] at found
          cases found
          exact .inl rfl
        · exact .inr ⟨h, mem, k, found, rfl⟩
    · rw [ih later okRest]
      constructor
      · rintro ⟨h, mem, k, found, rfl⟩
        exact ⟨h, List.mem_cons_of_mem _ mem, k, found, rfl⟩
      · rintro ⟨h, mem, k, found, rfl⟩
        rcases List.mem_cons.1 mem with rfl | mem
        · rw [named] at found
          cases found
        · exact ⟨h, mem, k, found, rfl⟩

/-- Whatever a check of one pair of types does to the pairs met, with violations or without, is done
along the way. -/
theorem checkFields_onward {extends_ : Met → Met → Prop} (refl : ∀ met, extends_ met met)
    (trans : ∀ {a b c}, extends_ a b → extends_ b c → extends_ a c)
    (keys : ∀ f ∈ reader, f.1.name.isKey = true)
    (each : ∀ f ∈ reader, ∀ g ∈ writer, ∀ place a vs b,
      step f.2.toJson g.2.toJson place a = .ok (vs, b) → extends_ a b)
    (ok : checkFields step path (writer.map entry) (reader.map fieldJson) met =
      .ok ((violations, names), met')) : extends_ met met' := by
  induction reader generalizing violations names met with
  | nil =>
    cases ok
    exact refl _
  | cons f rest ih =>
    have keysRest := fun g (mem : g ∈ rest) => keys g (List.mem_cons_of_mem _ mem)
    have eachRest := fun g (mem : g ∈ rest) => each g (List.mem_cons_of_mem _ mem)
    rw [List.map_cons] at ok
    rcases checkFields_cons_eq_ok (keys f List.mem_cons_self) ok with
      ⟨g, place, first, between, others, names', named, checked, okRest, -, -⟩ |
      ⟨named, others, okRest, -⟩
    · have here := each f List.mem_cons_self g (counterpart?_mem named) place met first between
        checked
      exact trans here (ih keysRest eachRest okRest)
    · exact ih keysRest eachRest okRest

/-- The place of the type of a field. -/
def typePath (path : String) (f : FieldHead × Form) : String :=
  path ++ "/fields/" ++ f.1.name.display ++ "/type"

theorem checkFields_cons_found {f g : FieldHead × Form} {rest : List Json}
    (looked : counterpart (writer.map entry) (fieldJson f) = .ok (some (fieldJson g))) :
    checkFields step path (writer.map entry) (fieldJson f :: rest) = (do
      let first ← step f.2.toJson g.2.toJson (typePath path f)
      let result ← checkFields step path (writer.map entry) rest
      return (first ++ result.1, g.1.name :: result.2)) := by
  rw [checkFields, item_name, pureStep_bind, looked, pureStep_bind]
  dsimp only
  rw [item_name, pureStep_bind, item_type, pureStep_bind, item_type, pureStep_bind]
  rfl

theorem checkFields_cons_error {f : FieldHead × Form} {rest : List Json} {e : Breakdown}
    (looked : counterpart (writer.map entry) (fieldJson f) = .error e) :
    checkFields step path (writer.map entry) (fieldJson f :: rest) = pureStep (.error e) := by
  rw [checkFields, item_name, pureStep_bind, looked]
  rfl

theorem checkFields_cons_missing {f : FieldHead × Form} {rest : List Json}
    (looked : counterpart (writer.map entry) (fieldJson f) = .ok none) :
    checkFields step path (writer.map entry) (fieldJson f :: rest) = (do
      let result ← checkFields step path (writer.map entry) rest
      if f.1.default.isSome then return result
      return (⟨.readerFieldMissingDefault f.1.name, path ++ "/fields/" ++ f.1.name.display, none,
        none⟩ :: result.1, result.2)) := by
  rw [checkFields, item_name, pureStep_bind, looked, pureStep_bind]
  dsimp only
  rw [get?_default]

/-- A check of fields breaks down in the check of a field and its counterpart, after the fields
before it, unless a field cannot be looked up. -/
theorem checkFields_eq_error (keys : ∀ f ∈ reader, f.1.name.isKey = true) {e : Breakdown}
    (broke : checkFields step path (writer.map entry) (reader.map fieldJson) met = .error e) :
    e = .wrongKind ∨ ∃ before f after g result between, reader = before ++ f :: after ∧
      checkFields step path (writer.map entry) (before.map fieldJson) met = .ok (result, between) ∧
      counterpart? writer f.1 = some g ∧
      step f.2.toJson g.2.toJson (typePath path f) between = .error e := by
  induction reader generalizing met with
  | nil => cases broke
  | cons f rest ih =>
    have keysRest := fun g (mem : g ∈ rest) => keys g (List.mem_cons_of_mem _ mem)
    have key := keys f List.mem_cons_self
    rw [List.map_cons] at broke
    cases looked : counterpart (writer.map entry) (fieldJson f) with
    | error b =>
      obtain rfl := counterpart_eq_error key looked
      rw [checkFields_cons_error looked] at broke
      cases broke
      exact .inl rfl
    | ok found =>
      cases named : counterpart? writer f.1 with
      | some g =>
        obtain rfl : found = some (fieldJson g) := by
          rw [counterpart_eq_ok key looked, named]
          rfl
        rw [checkFields_cons_found looked] at broke
        rcases Run.bind_eq_error.1 broke with here | ⟨first, between, checked, later⟩
        · exact .inr ⟨[], f, rest, g, ([], []), met, rfl, rfl, named, here⟩
        · rcases Run.bind_eq_error.1 later with inside | ⟨others, after, -, last⟩
          · rcases ih keysRest inside with
              plain | ⟨before, h, after, k, result, then_, rfl, tried, named', breaks⟩
            · exact .inl plain
            · refine .inr ⟨f :: before, h, after, k, (first ++ result.1, g.1.name :: result.2),
                then_, rfl, ?_, named', breaks⟩
              rw [List.map_cons, checkFields_cons_found looked, Run.bind_of_ok checked,
                Run.bind_of_ok tried]
              rfl
          · cases last
      | none =>
        obtain rfl : found = none := by
          rw [counterpart_eq_ok key looked, named]
          rfl
        have ignored {found : List Violation × List Json} {between : Met} {others : List Json}
            (tried : checkFields step path (writer.map entry) others met = .ok (found, between)) :
            ∃ result, checkFields step path (writer.map entry) (fieldJson f :: others) met =
              .ok (result, between) := by
          rw [checkFields_cons_missing looked, Run.bind_of_ok tried]
          split
          · exact ⟨_, rfl⟩
          · exact ⟨_, rfl⟩
        rw [checkFields_cons_missing looked] at broke
        rcases Run.bind_eq_error.1 broke with inside | ⟨found, between, -, last⟩
        · rcases ih keysRest inside with
            plain | ⟨before, h, after, k, result, then_, rfl, tried, named', breaks⟩
          · exact .inl plain
          · obtain ⟨result', tried'⟩ := ignored tried
            exact .inr ⟨f :: before, h, after, k, result', then_, rfl, tried', named', breaks⟩
        · split at last
          · cases last
          · cases last

/-- A check of fields without violations has checked every counterpart without violations, one
after the other: whatever such a check does to the pairs met is done along the way. -/
theorem checkFields_passed {extends_ : Met → Met → Prop} (refl : ∀ met, extends_ met met)
    (trans : ∀ {a b c}, extends_ a b → extends_ b c → extends_ a c)
    (keys : ∀ f ∈ reader, f.1.name.isKey = true)
    (passed : ∀ f ∈ reader, ∀ g ∈ writer, ∀ place a b,
      step f.2.toJson g.2.toJson place a = .ok ([], b) → extends_ a b)
    (ok : checkFields step path (writer.map entry) (reader.map fieldJson) met =
      .ok (([], names), met')) :
    extends_ met met' ∧
      (∀ f ∈ reader, ∀ g, counterpart? writer f.1 = some g → ∃ place a b,
        step f.2.toJson g.2.toJson place a = .ok ([], b) ∧ extends_ b met') ∧
      ∀ f ∈ reader, counterpart? writer f.1 = none → f.1.default.isSome = true := by
  induction reader generalizing names met with
  | nil =>
    cases ok
    exact ⟨refl _, by simp, by simp⟩
  | cons f rest ih =>
    have keysRest := fun g (mem : g ∈ rest) => keys g (List.mem_cons_of_mem _ mem)
    have passedRest := fun g (mem : g ∈ rest) => passed g (List.mem_cons_of_mem _ mem)
    rw [List.map_cons] at ok
    rcases checkFields_cons_eq_ok (keys f List.mem_cons_self) ok with
      ⟨g, place, first, between, others, names', named, checked, okRest, split, -⟩ |
      ⟨named, others, okRest, agree⟩
    · obtain ⟨rfl, rfl⟩ := List.append_eq_nil_iff.1 split.symm
      obtain ⟨onward, found, missing⟩ := ih keysRest passedRest okRest
      have here := passed f List.mem_cons_self g (counterpart?_mem named) place met between checked
      refine ⟨trans here onward, ?_, ?_⟩
      · intro h mem k looked
        rcases List.mem_cons.1 mem with rfl | mem
        · rw [named] at looked
          cases looked
          exact ⟨place, met, between, checked, onward⟩
        · exact found h mem k looked
      · intro h mem looked
        rcases List.mem_cons.1 mem with rfl | mem
        · rw [named] at looked
          cases looked
        · exact missing h mem looked
    · obtain ⟨fallback, rfl⟩ := agree.1 rfl
      obtain ⟨onward, found, missing⟩ := ih keysRest passedRest okRest
      refine ⟨onward, ?_, ?_⟩
      · intro h mem k looked
        rcases List.mem_cons.1 mem with rfl | mem
        · rw [named] at looked
          cases looked
        · exact found h mem k looked
      · intro h mem looked
        rcases List.mem_cons.1 mem with rfl | mem
        · exact fallback
        · exact missing h mem looked

/-- Fields of which every counterpart passes and every other one has a default pass. -/
theorem checkFields_clean (keys : ∀ f ∈ reader, f.1.name.isKey = true)
    (found : ∀ f ∈ reader, ∀ g, counterpart? writer f.1 = some g → ∀ place a vs b,
      step f.2.toJson g.2.toJson place a = .ok (vs, b) → vs = [])
    (missing : ∀ f ∈ reader, counterpart? writer f.1 = none → f.1.default.isSome = true)
    (ok : checkFields step path (writer.map entry) (reader.map fieldJson) met =
      .ok ((violations, names), met')) : violations = [] := by
  induction reader generalizing violations names met with
  | nil =>
    cases ok
    rfl
  | cons f rest ih =>
    have keysRest := fun g (mem : g ∈ rest) => keys g (List.mem_cons_of_mem _ mem)
    have foundRest := fun g (mem : g ∈ rest) => found g (List.mem_cons_of_mem _ mem)
    have missingRest := fun g (mem : g ∈ rest) => missing g (List.mem_cons_of_mem _ mem)
    rw [List.map_cons] at ok
    rcases checkFields_cons_eq_ok (keys f List.mem_cons_self) ok with
      ⟨g, place, first, between, others, names', named, checked, okRest, rfl, -⟩ |
      ⟨named, others, okRest, agree⟩
    · rw [found f List.mem_cons_self g named place met first between checked,
        ih keysRest foundRest missingRest okRest]
      rfl
    · exact agree.2 ⟨missing f List.mem_cons_self named, ih keysRest foundRest missingRest okRest⟩

/-- A check of fields gives a result if the check of every pair of their types does, from any
pairs met that satisfy what those checks keep. -/
theorem checkFields_total {invariant : Met → Prop} (keys : ∀ f ∈ reader, f.1.name.isKey = true)
    (aliases : ∀ f ∈ reader, ∀ a ∈ f.1.aliases, a.isKey = true)
    (total : ∀ f ∈ reader, ∀ g ∈ writer, ∀ place a, invariant a →
      ∃ vs b, step f.2.toJson g.2.toJson place a = .ok (vs, b) ∧ invariant b)
    (start : invariant met) :
    ∃ violations names met', checkFields step path (writer.map entry) (reader.map fieldJson) met =
      .ok ((violations, names), met') ∧ invariant met' := by
  induction reader generalizing met with
  | nil => exact ⟨[], [], met, rfl, start⟩
  | cons f rest ih =>
    have keysRest := fun g (mem : g ∈ rest) => keys g (List.mem_cons_of_mem _ mem)
    have aliasesRest := fun g (mem : g ∈ rest) => aliases g (List.mem_cons_of_mem _ mem)
    have totalRest := fun g (mem : g ∈ rest) => total g (List.mem_cons_of_mem _ mem)
    obtain ⟨found, looked⟩ := @counterpart_total writer f (keys f List.mem_cons_self)
      (aliases f List.mem_cons_self)
    obtain rfl := counterpart_eq_ok (keys f List.mem_cons_self) looked
    rw [List.map_cons, checkFields, item_name, pureStep_bind, looked, pureStep_bind]
    cases named : counterpart? writer f.1 with
    | some g =>
      obtain ⟨first, between, checked, kept⟩ := total f List.mem_cons_self g
        (counterpart?_mem named) (path ++ "/fields/" ++ f.1.name.display ++ "/type") met start
      obtain ⟨others, names', after, okRest, keptRest⟩ := ih keysRest aliasesRest totalRest kept
      dsimp only [Option.map_some]
      rw [item_name, pureStep_bind, item_type, pureStep_bind, item_type, pureStep_bind,
        Run.bind_of_ok checked, Run.bind_of_ok okRest]
      exact ⟨_, _, after, rfl, keptRest⟩
    | none =>
      obtain ⟨others, names', after, okRest, keptRest⟩ := ih keysRest aliasesRest totalRest start
      dsimp only [Option.map_none]
      rw [Run.bind_of_ok okRest]
      dsimp only
      split
      · exact ⟨_, _, after, rfl, keptRest⟩
      · exact ⟨_, _, after, rfl, keptRest⟩

end

end AvroRegistry.Compatibility
