import AvroRegistry.Proofs.Schema.Normalized

/-!
# What a form is made of

`normalizeType_traced` is the walk of normalizing as an induction over the value, its form and the
names defined before and after it. One case for each shape says which members the parts of the form
were taken from, so that what relates a schema to its canonical form is proved shape by shape.
-/

namespace AvroRegistry.Schema

/-- A relation between values and what is made of them, with the names defined before and after,
along two lists. -/
inductive Along {α β σ : Type} (step : α → σ → β → σ → Prop) : List α → σ → List β → σ → Prop where
  | nil (state : σ) : Along step [] state [] state
  | cons {a : α} {b : β} {as : List α} {bs : List β} {before between after : σ}
      (first : step a before b between) (others : Along step as between bs after) :
      Along step (a :: as) before (b :: bs) after

/-- What relates the forms and the names alone holds along the forms. -/
theorem Along.chain {α σ : Type} {motive : σ → Form → σ → Prop} {as : List α} {forms : List Form}
    {before after : σ}
    (along : Along (fun _ before form after => motive before form after) as before forms after) :
    Chain motive before forms after := by
  induction along with
  | nil state => exact .nil state
  | cons first _ ih => exact .cons first ih

/-- A named type with its full name and its sorted aliases. -/
structure Introduced (space : String) (members : List (String × Json)) (full : String)
    (aliases : List Json) : Prop where
  named : ∃ name, Json.lookup "name" members = some (.str name) ∧ name ≠ "" ∧
    full = qualify name (enclosing space members)
  aliased : typeAliases (spaceOf full) members = .ok aliases

/-- A field and what is made of it, given a relation between types. -/
structure FieldMade (made : Json → List String → Form → List String → Prop) (item : Json)
    (before : List String) (field : FieldHead × Form) (after : List String) : Prop where
  parts : ∃ members name v aliases, item = .obj members ∧
    Json.lookup "name" members = some name ∧ name.isKey = true ∧
    Json.lookup "type" members = some v ∧ made v before field.2 after ∧
    fieldAliases members = .ok aliases ∧ field.1 = headOf name aliases members

theorem chain_of_made {motive : List String → Form → List String → Prop} {items : List Json}
    {fields : List (FieldHead × Form)} {before after : List String}
    (along : Along (FieldMade fun _ before form after => motive before form after) items before
      fields after) :
    Chain motive before (fields.map Prod.snd) after := by
  induction along with
  | nil state => exact .nil state
  | cons first _ ih =>
    obtain ⟨_, _, _, _, -, -, -, -, made, -, -⟩ := first.parts
    exact .cons made ih

theorem introduced_of_introduce {space : String} {type : Json} {members : List (String × Json)}
    {full : String} {aliases : List Json} {before after : List String}
    (ok : introduce space type members before = .ok ((full, aliases), after)) :
    Introduced space members full aliases ∧ after = full :: before := by
  obtain ⟨name, named, filled, is, aliased, rfl⟩ := introduce_eq_ok ok
  exact ⟨⟨⟨name, named, filled, is⟩, aliased⟩, rfl⟩

section

variable {motive : String → Json → List String → Form → List String → Prop}

theorem along_of_branches {space : String} {branches : List Json} {forms : List Form}
    {before after : List String}
    (each : ∀ v ∈ branches, ∀ {D form D'}, normalizeType space v D = .ok (form, D') →
      motive space v D form D')
    (ok : normalizeBranches space branches before = .ok (forms, after)) :
    Along (motive space) branches before forms after := by
  induction branches generalizing forms before with
  | nil =>
    rw [normalizeBranches] at ok
    cases ok
    exact .nil _
  | cons branch rest ih =>
    obtain ⟨first, between, others, read, othersOk, rfl⟩ := normalizeBranches_cons_eq_ok.1 ok
    exact .cons (each branch List.mem_cons_self read)
      (ih (fun v mem => each v (List.mem_cons_of_mem _ mem)) othersOk)

theorem along_of_fields {full space : String} {items seen : List Json}
    {fields : List (FieldHead × Form)} {before after : List String}
    (each : ∀ members, .obj members ∈ items → ∀ v, Json.lookup "type" members = some v →
      ∀ {D form D'}, normalizeType space v D = .ok (form, D') → motive space v D form D')
    (ok : normalizeFields full space seen items before = .ok (fields, after)) :
    Along (FieldMade (motive space)) items before fields after := by
  induction items generalizing fields seen before with
  | nil =>
    rw [normalizeFields] at ok
    cases ok
    exact .nil _
  | cons item rest ih =>
    cases item with
    | obj members =>
      obtain ⟨name, v, type, between, aliases, others, named, key, -, typed, read, sorted,
        othersOk, rfl⟩ := normalizeFields_cons_eq_ok.1 ok
      have made : FieldMade (motive space) (.obj members) before (headOf name aliases members, type)
          between :=
        ⟨members, name, v, aliases, rfl, named, key, typed,
          each members List.mem_cons_self v typed read, sorted, rfl⟩
      exact .cons made (ih (fun m mem => each m (List.mem_cons_of_mem _ mem)) othersOk)
    | _ =>
      rw [normalizeFields] at ok
      · cases ok
      · simp

/-- What is no constructor is a primitive type or a reference. -/
theorem normalizeOther_made {space : String} {type : Json} {members : List (String × Json)}
    {form : Form} {before after : List String}
    (ok : normalizeOther space type members before = .ok (form, after)) :
    ∃ name, type = .str name ∧
      (isPrimitive name = true ∧ form = primitiveForm name members ∧ after = before ∨
        isPrimitive name = false ∧ resolve name space before = .ok (form, after)) := by
  cases type with
  | str name =>
    unfold normalizeOther at ok
    dsimp only at ok
    split at ok
    · next primitive =>
      cases ok
      exact ⟨name, rfl, .inl ⟨primitive, rfl, rfl⟩⟩
    · next other => exact ⟨name, rfl, .inr ⟨by simpa using other, ok⟩⟩
  | _ => cases ok

/-- The walk of normalizing, shape by shape. -/
theorem normalizeType_traced
    (word : ∀ space name D form D', resolve name space D = .ok (form, D') →
      motive space (.str name) D form D')
    (union : ∀ space branches D forms D', Form.Tidy (.union forms) →
      Along (motive space) branches D forms D' → motive space (.arr branches) D (.union forms) D')
    (container : ∀ space (c : Container) members v D part D',
      Json.lookup "type" members = some (.str c.word) → Json.lookup c.key members = some v →
      motive space v D part D' → motive space (.obj members) D (c.form part) D')
    (record : ∀ space isError members full aliases items D fields D',
      Json.lookup "type" members = some (.str (recordKind isError)) →
      Introduced space members full aliases → Json.lookup "fields" members = some (.arr items) →
      Form.Tidy (.record isError full aliases fields) →
      Along (FieldMade (motive (spaceOf full))) items (full :: D) fields D' →
      motive space (.obj members) D (.record isError full aliases fields) D')
    (enumeration : ∀ space members full aliases symbols items D,
      Json.lookup "type" members = some (.str "enum") → Introduced space members full aliases →
      Json.lookup "symbols" members = some symbols → symbols.elements = .ok items →
      Form.Tidy (.enumeration full aliases items (Json.lookup "default" members)) →
      motive space (.obj members) D
        (.enumeration full aliases items (Json.lookup "default" members)) (full :: D))
    (fixed : ∀ space members full aliases size D,
      Json.lookup "type" members = some (.str "fixed") → Introduced space members full aliases →
      Json.lookup "size" members = some size →
      motive space (.obj members) D (.fixed full aliases size (fixedAttributes members))
        (full :: D))
    (primitive : ∀ space members name D, Json.lookup "type" members = some (.str name) →
      isPrimitive name = true → motive space (.obj members) D (primitiveForm name members) D)
    (reference : ∀ space members name D form D', Json.lookup "type" members = some (.str name) →
      isConstructor (.str name) = false → isPrimitive name = false →
      resolve name space D = .ok (form, D') → motive space (.obj members) D form D')
    (v : Json) : ∀ {space D form D'}, normalizeType space v D = .ok (form, D') →
      motive space v D form D' := by
  induction v using Json.induct with
  | step v ih =>
    intro space D form D' ok
    cases v with
    | arr branches =>
      obtain ⟨some, forms, rfl, read⟩ := normalizeUnion_eq_ok ok
      exact union space branches D forms D' (tidy_union some read)
        (along_of_branches (fun b mem {_ _ _} => ih b (Json.sizeOf_item mem)) read)
    | obj members =>
      have part : ∀ c : Container, Json.lookup "type" members = some (.str c.word) →
          motive space (.obj members) D form D' := by
        intro c typed
        obtain ⟨t, part, found, read, rfl⟩ := normalizeContainer_eq_ok typed ok
        exact container space c members t D part D' typed found
          (ih t (Json.sizeOf_lookup found) read)
      cases shape members with
      | untyped h =>
        rw [normalizeType_untyped space h] at ok
        cases ok
      | record isError h =>
        obtain ⟨full, aliases, between, first, rest, fields, introduced, found, read, rfl⟩ :=
          normalizeRecord_eq_ok h ok
        obtain ⟨named, rfl⟩ := introduced_of_introduce introduced
        have smaller : ∀ m, .obj m ∈ first :: rest → ∀ t, Json.lookup "type" m = some t →
            sizeOf t < sizeOf (Json.obj members) := by
          intro m mem t typed
          have := Json.sizeOf_lookup typed
          have := Json.sizeOf_item mem
          have := Json.sizeOf_lookup found
          omega
        exact record space isError members full aliases (first :: rest) D fields D' h named
          found (tidy_record read)
          (along_of_fields (fun m mem t typed {_ _ _} => ih t (smaller m mem t typed)) read)
      | enumeration h =>
        rw [normalizeType_enumeration space h] at ok
        obtain ⟨full, aliases, symbols, items, introduced, rfl, tidy, found, listed⟩ :=
          normalizeEnum_eq_ok ok
        obtain ⟨named, rfl⟩ := introduced_of_introduce introduced
        exact enumeration space members full aliases symbols items D h named found listed tidy
      | fixed h =>
        rw [normalizeType_fixed space h] at ok
        obtain ⟨full, aliases, size, introduced, rfl, found⟩ := normalizeFixed_eq_ok ok
        obtain ⟨named, rfl⟩ := introduced_of_introduce introduced
        exact fixed space members full aliases size D h named found
      | array h => exact part .array h
      | map h => exact part .map h
      | other type h plain =>
        rw [normalizeType_other space h plain] at ok
        split at ok
        · cases ok
        obtain ⟨name, rfl, ⟨known, rfl, rfl⟩ | ⟨unknown, read⟩⟩ := normalizeOther_made ok
        · exact primitive space members name D' h known
        · exact reference space members name D form D' h plain unknown read
    | str name =>
      rw [normalizeType_str] at ok
      exact word space name D form D' ok
    | _ =>
      rw [normalizeType] at ok
      · cases ok
      all_goals simp

end

end AvroRegistry.Schema
