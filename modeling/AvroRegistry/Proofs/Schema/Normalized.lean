import AvroRegistry.Proofs.Schema.Naming
import AvroRegistry.Proofs.Schema.Nodes
import AvroRegistry.Proofs.Schema.Walks

/-!
# What normalizing gives

When normalizing a type succeeds, the type had one of a few shapes, and its form is made of the
forms of its parts without a defect of its own: there are branches, the names of fields differ,
symbols differ, and attributes belong to their type. The sections below say so shape by shape.
-/

namespace AvroRegistry.Schema

/-! ## Forms without defects of their own -/

namespace Form

/-- Fields have names that may be keys and differ from each other. -/
structure NamesDiffer (fields : List (FieldHead × Form)) : Prop where
  keys : ∀ f ∈ fields, f.1.name.isKey = true
  differ : fields.Pairwise fun f g => f.1.name.same g.1.name = false

/-- The members that a fixed type can keep. -/
def fixedKeys : List String := ["logicalType", "precision", "scale"]

/-- A type has no defect of its own, whatever its parts are: there are branches, there are fields
and their names differ, symbols differ, attributes belong to their type. -/
def Tidy : Form → Prop
  | name _ => True
  | annotated p _ => isPrimitive p = true
  | union branches => branches ≠ []
  | array _ => True
  | map _ => True
  | record _ _ _ fields => fields ≠ [] ∧ NamesDiffer fields
  | enumeration _ _ symbols _ => symbols.all Json.isKey = true ∧ Json.allDistinct symbols = true
  | fixed _ _ _ attributes => ∀ m ∈ attributes, m.1 ∈ fixedKeys

end Form

/-! ## Arrays and maps -/

section

variable (container : Container) (part : Form)

theorem nodes_container : (container.form part).nodes = container.form part :: part.nodes := by
  cases container <;> rfl

theorem definedName?_container : (container.form part).definedName? = none := by
  cases container <;> rfl

theorem tidy_container : (container.form part).Tidy := by
  cases container <;> trivial

end

/-! ## Success, shape by shape -/

section

variable {space : String} {members : List (String × Json)} {form : Form}
  {defined defined' : List String}

theorem resolve_eq_ok {name : String} (ok : resolve name space defined = .ok (form, defined')) :
    ∃ n, form = .name n ∧ (isPrimitive n = true ∨ n ∈ defined) ∧ defined' = defined := by
  unfold resolve at ok
  by_cases primitive : isPrimitive name = true
  · rw [if_pos primitive] at ok
    cases ok
    exact ⟨name, rfl, .inl primitive, rfl⟩
  · rw [if_neg primitive] at ok
    change (if defined.contains (qualify name space) then pure (.name (qualify name space))
      else if defined.contains name then pure (.name name)
      else reject (.unresolved name) : Normalizing Form) defined = _ at ok
    split at ok
    · next found =>
      cases ok
      exact ⟨_, rfl, .inr (List.contains_iff_mem.1 found), rfl⟩
    · split at ok
      · next found =>
        cases ok
        exact ⟨_, rfl, .inr (List.contains_iff_mem.1 found), rfl⟩
      · cases ok

theorem normalizeWord_eq_ok {w : Json}
    (ok : normalizeWord space w defined = .ok (form, defined')) :
    ∃ n, form = .name n ∧ (isPrimitive n = true ∨ n ∈ defined) ∧ defined' = defined := by
  cases w with
  | str name => exact resolve_eq_ok ok
  | _ => cases ok

theorem normalizeOther_eq_ok {type : Json}
    (ok : normalizeOther space type members defined = .ok (form, defined')) :
    (∃ p, type = .str p ∧ isPrimitive p = true ∧ form = primitiveForm p members ∧
      defined' = defined) ∨
    ∃ n, form = .name n ∧ (isPrimitive n = true ∨ n ∈ defined) ∧ defined' = defined := by
  cases type with
  | str p =>
    unfold normalizeOther at ok
    dsimp only at ok
    split at ok
    · next primitive =>
      cases ok
      exact .inl ⟨p, rfl, primitive, rfl, rfl⟩
    · exact .inr (resolve_eq_ok ok)
  | arr items => cases ok
  | obj members => cases ok
  | _ => cases ok

theorem normalizeUnder_eq_ok {key : String}
    (ok : normalizeUnder key space members defined = .ok (form, defined')) :
    ∃ v, Json.lookup key members = some v ∧
      normalizeType space v defined = .ok (form, defined') := by
  rw [normalizeUnder_eq] at ok
  cases found : Json.lookup key members with
  | none =>
    rw [found] at ok
    cases ok
  | some v =>
    rw [found] at ok
    exact ⟨v, rfl, ok⟩

theorem normalizeContainer_eq_ok {container : Container}
    (typed : Json.lookup "type" members = some (.str container.word))
    (ok : normalizeType space (.obj members) defined = .ok (form, defined')) :
    ∃ v part, Json.lookup container.key members = some v ∧
      normalizeType space v defined = .ok (part, defined') ∧ form = container.form part := by
  rw [normalizeType_container space typed, Run.bind_eq_ok] at ok
  obtain ⟨part, between, read, rest⟩ := ok
  cases rest
  obtain ⟨v, found, read⟩ := normalizeUnder_eq_ok read
  exact ⟨v, part, found, read, rfl⟩

theorem normalizeEnum_eq_ok {type : Json}
    (ok : normalizeEnum space type members defined = .ok (form, defined')) :
    ∃ full aliases symbols items,
      introduce space type members defined = .ok ((full, aliases), defined') ∧
      form = .enumeration full aliases items (Json.lookup "default" members) ∧ form.Tidy ∧
      Json.lookup "symbols" members = some symbols ∧ symbols.elements = .ok items := by
  unfold normalizeEnum at ok
  rw [Run.bind_eq_ok] at ok
  obtain ⟨⟨full, aliases⟩, between, introduced, rest⟩ := ok
  dsimp only at rest
  cases found : Json.lookup "symbols" members with
  | none =>
    rw [found] at rest
    cases rest
  | some symbols =>
    rw [found] at rest
    dsimp only at rest
    rw [Run.bind_eq_ok] at rest
    obtain ⟨items, between', read, rest⟩ := rest
    obtain ⟨listed, rfl⟩ := lift_eq_ok.1 read
    split at rest
    · cases rest
    · next keys =>
      change (if !Json.allDistinct items then _ else _ : Normalizing Form) between' = _ at rest
      split at rest
      · cases rest
      · next distinct =>
        cases rest
        exact ⟨full, aliases, symbols, items, introduced, rfl,
          ⟨by simpa using keys, by simpa using distinct⟩, rfl, listed⟩

theorem fixedAttributes_keys (members : List (String × Json)) :
    ∀ m ∈ fixedAttributes members, m.1 ∈ Form.fixedKeys := by
  intro m hm
  obtain ⟨key, known, made⟩ := List.mem_filterMap.1 hm
  obtain ⟨v, -, rfl⟩ := Option.map_eq_some_iff.1 made
  exact known

theorem normalizeFixed_eq_ok {type : Json}
    (ok : normalizeFixed space type members defined = .ok (form, defined')) :
    ∃ full aliases size,
      introduce space type members defined = .ok ((full, aliases), defined') ∧
      form = .fixed full aliases size (fixedAttributes members) ∧
      Json.lookup "size" members = some size := by
  unfold normalizeFixed at ok
  rw [Run.bind_eq_ok] at ok
  obtain ⟨⟨full, aliases⟩, between, introduced, rest⟩ := ok
  dsimp only at rest
  cases found : Json.lookup "size" members with
  | none =>
    rw [found] at rest
    cases rest
  | some size =>
    rw [found] at rest
    cases rest
    exact ⟨full, aliases, size, introduced, rfl, rfl⟩

theorem normalizeFieldsOf_eq_ok {full : String} {fields : List (FieldHead × Form)}
    (ok : normalizeFieldsOf full space members defined = .ok (fields, defined')) :
    ∃ first rest, Json.lookup "fields" members = some (.arr (first :: rest)) ∧
      normalizeFields full space [] (first :: rest) defined = .ok (fields, defined') := by
  rw [normalizeFieldsOf_eq] at ok
  cases found : Json.lookup "fields" members with
  | none =>
    rw [found] at ok
    cases ok
  | some v =>
    rw [found] at ok
    cases v with
    | arr items =>
      cases items with
      | nil => cases ok
      | cons first rest => exact ⟨first, rest, rfl, ok⟩
    | _ =>
      dsimp only at ok
      split at ok
      all_goals cases ok

theorem normalizeRecord_eq_ok {isError : Bool}
    (typed : Json.lookup "type" members = some (.str (recordKind isError)))
    (ok : normalizeType space (.obj members) defined = .ok (form, defined')) :
    ∃ full aliases between first rest fields,
      introduce space (.str (recordKind isError)) members defined =
        .ok ((full, aliases), between) ∧
      Json.lookup "fields" members = some (.arr (first :: rest)) ∧
      normalizeFields full (spaceOf full) [] (first :: rest) between =
        .ok (fields, defined') ∧
      form = .record isError full aliases fields := by
  rw [normalizeType_record space typed, Run.bind_eq_ok] at ok
  obtain ⟨⟨full, aliases⟩, between, introduced, ok⟩ := ok
  dsimp only at ok
  rw [Run.bind_eq_ok] at ok
  obtain ⟨fields, between', read, ok⟩ := ok
  cases ok
  obtain ⟨first, rest, found, read⟩ := normalizeFieldsOf_eq_ok read
  exact ⟨full, aliases, between, first, rest, fields, introduced, found, read, rfl⟩

/-! ## Success on lists -/

theorem normalizeUnion_eq_ok {branches : List Json}
    (ok : normalizeType space (.arr branches) defined = .ok (form, defined')) :
    branches ≠ [] ∧ ∃ forms, form = .union forms ∧
      normalizeBranches space branches defined = .ok (forms, defined') := by
  cases branches with
  | nil =>
    rw [normalizeType] at ok
    cases ok
  | cons branch rest =>
    rw [normalizeType, Run.bind_eq_ok] at ok
    · obtain ⟨forms, between, read, ok⟩ := ok
      cases ok
      exact ⟨List.cons_ne_nil _ _, forms, rfl, read⟩
    · intro h
      cases h

theorem normalizeBranches_cons_eq_ok {branch : Json} {rest : List Json} {forms : List Form} :
    normalizeBranches space (branch :: rest) defined = .ok (forms, defined') ↔
      ∃ first between others, normalizeType space branch defined = .ok (first, between) ∧
        normalizeBranches space rest between = .ok (others, defined') ∧
        forms = first :: others := by
  rw [normalizeBranches, Run.bind_eq_ok]
  constructor
  · rintro ⟨first, between, read, ok⟩
    rw [Run.bind_eq_ok] at ok
    obtain ⟨others, between', others_ok, ok⟩ := ok
    cases ok
    exact ⟨first, between, others, read, others_ok, rfl⟩
  · rintro ⟨first, between, others, read, others_ok, rfl⟩
    refine ⟨first, between, read, ?_⟩
    rw [Run.bind_of_ok others_ok]
    rfl

theorem fieldName_eq_ok {full : String} {seen : List Json} {name : Json} :
    fieldName full seen members defined = .ok (name, defined') ↔
      Json.lookup "name" members = some name ∧ name.isKey = true ∧ name.isIn seen = false ∧
        defined' = defined := by
  unfold fieldName
  cases Json.lookup "name" members with
  | none =>
    constructor
    · intro h
      cases h
    · rintro ⟨h, -⟩
      cases h
  | some v =>
    dsimp only
    constructor
    · intro h
      split at h
      · cases h
      · next key =>
        split at h
        · cases h
        · next fresh =>
          cases h
          exact ⟨rfl, by simpa using key, by simpa using fresh, rfl⟩
    · rintro ⟨h, key, fresh, rfl⟩
      cases h
      rw [key, fresh]
      rfl

/-- The head of a field, given its name and its sorted aliases. -/
def headOf (name : Json) (aliases : List Json) (members : List (String × Json)) : FieldHead :=
  ⟨name, Json.lookup "default" members, aliases, fieldOrder members⟩

theorem normalizeFields_cons_eq_ok {full : String} {seen : List Json}
    {rest : List Json} {fields : List (FieldHead × Form)} :
    normalizeFields full space seen (.obj members :: rest) defined = .ok (fields, defined') ↔
      ∃ name v type between aliases others,
        Json.lookup "name" members = some name ∧ name.isKey = true ∧ name.isIn seen = false ∧
        Json.lookup "type" members = some v ∧
        normalizeType space v defined = .ok (type, between) ∧
        fieldAliases members = .ok aliases ∧
        normalizeFields full space (name :: seen) rest between = .ok (others, defined') ∧
        fields = (headOf name aliases members, type) :: others := by
  rw [normalizeFields, Run.bind_eq_ok]
  constructor
  · rintro ⟨name, start, named, ok⟩
    obtain ⟨found, key, fresh, rfl⟩ := fieldName_eq_ok.1 named
    rw [Run.bind_eq_ok] at ok
    obtain ⟨type, between, typed, ok⟩ := ok
    obtain ⟨v, foundType, typed⟩ := normalizeUnder_eq_ok typed
    rw [Run.bind_eq_ok] at ok
    obtain ⟨aliases, between', read, ok⟩ := ok
    obtain ⟨sorted, rfl⟩ := lift_eq_ok.1 read
    rw [Run.bind_eq_ok] at ok
    obtain ⟨others, after, others_ok, ok⟩ := ok
    cases ok
    exact ⟨name, v, type, between', aliases, others, found, key, fresh, foundType, typed, sorted,
      others_ok, rfl⟩
  · rintro ⟨name, v, type, between, aliases, others, found, key, fresh, foundType, typed, sorted,
      others_ok, rfl⟩
    refine ⟨name, defined, fieldName_eq_ok.2 ⟨found, key, fresh, rfl⟩, ?_⟩
    rw [normalizeUnder_eq, foundType]
    dsimp only
    rw [Run.bind_of_ok typed, Run.bind_of_ok (lift_eq_ok.2 ⟨sorted, rfl⟩),
      Run.bind_of_ok others_ok]
    rfl

/-- The branches of a union have forms, one for each. -/
theorem normalizeBranches_length {branches : List Json} {forms : List Form}
    (ok : normalizeBranches space branches defined = .ok (forms, defined')) :
    forms.length = branches.length := by
  induction branches generalizing forms defined with
  | nil =>
    rw [normalizeBranches] at ok
    cases ok
    rfl
  | cons branch rest ih =>
    obtain ⟨first, between, others, -, othersOk, rfl⟩ := normalizeBranches_cons_eq_ok.1 ok
    rw [List.length_cons, List.length_cons, ih othersOk]

/-- The fields of a record are as many as their items, and have names that differ from each other
and from those seen before. -/
theorem normalizeFields_names {full : String} {items seen : List Json}
    {fields : List (FieldHead × Form)} (seenKeys : ∀ v ∈ seen, v.isKey = true)
    (ok : normalizeFields full space seen items defined = .ok (fields, defined')) :
    Form.NamesDiffer fields ∧ (∀ f ∈ fields, ∀ v ∈ seen, v.same f.1.name = false) ∧
      fields.length = items.length := by
  induction items generalizing fields seen defined with
  | nil =>
    rw [normalizeFields] at ok
    cases ok
    exact ⟨⟨by simp, .nil⟩, by simp, rfl⟩
  | cons item rest ih =>
    cases item with
    | obj members =>
      obtain ⟨name, v, type, between, aliases, others, named, key, fresh, typed, read, sorted,
        othersOk, rfl⟩ := normalizeFields_cons_eq_ok.1 ok
      have seenKeys' : ∀ w ∈ name :: seen, w.isKey = true := List.forall_mem_cons.2 ⟨key, seenKeys⟩
      obtain ⟨differ, apart, count⟩ := ih seenKeys' othersOk
      have freshFrom : ∀ w ∈ seen, w.same name = false := by
        intro w mem
        rw [Json.same_comm (seenKeys w mem) key]
        have := List.any_eq_false.1 fresh w mem
        simpa using this
      refine ⟨⟨?_, ?_⟩, ?_, ?_⟩
      · exact List.forall_mem_cons.2 ⟨key, differ.keys⟩
      · exact List.pairwise_cons.2
          ⟨fun f mem => apart f mem name List.mem_cons_self, differ.differ⟩
      · exact List.forall_mem_cons.2 ⟨freshFrom,
          fun f mem w seenBefore => apart f mem w (List.mem_cons_of_mem _ seenBefore)⟩
      · rw [List.length_cons, List.length_cons, count]
    | _ =>
      rw [normalizeFields] at ok
      · cases ok
      · intro members h
        cases h

theorem tidy_union {branches : List Json} {forms : List Form} (some : branches ≠ [])
    (ok : normalizeBranches space branches defined = .ok (forms, defined')) :
    (Form.union forms).Tidy := by
  rintro rfl
  exact some (List.eq_nil_of_length_eq_zero (normalizeBranches_length ok).symm)

theorem tidy_record {isError : Bool} {full : String} {aliases : List Json} {first : Json}
    {rest : List Json} {fields : List (FieldHead × Form)}
    (ok : normalizeFields full space [] (first :: rest) defined = .ok (fields, defined')) :
    (Form.record isError full aliases fields).Tidy := by
  obtain ⟨differ, -, count⟩ := normalizeFields_names (by simp) ok
  refine ⟨?_, differ⟩
  rintro rfl
  cases count

end

/-! ## Lists of types -/

/-- A property of types with the states before and after them, along a list of types. -/
inductive Chain {σ : Type} (motive : σ → Form → σ → Prop) : σ → List Form → σ → Prop where
  | nil (state : σ) : Chain motive state [] state
  | cons {before between after : σ} {form : Form} {rest : List Form}
      (first : motive before form between) (others : Chain motive between rest after) :
      Chain motive before (form :: rest) after

/-- What holds of each type along a list, whatever the states, holds of every type in it. -/
theorem Chain.forall {σ : Type} {motive : Form → Prop} {before after : σ} {forms : List Form}
    (chain : Chain (fun _ form _ => motive form) before forms after) :
    ∀ form ∈ forms, motive form := by
  induction chain with
  | nil => simp
  | cons first _ ih => exact List.forall_mem_cons.2 ⟨first, ih⟩

end AvroRegistry.Schema
