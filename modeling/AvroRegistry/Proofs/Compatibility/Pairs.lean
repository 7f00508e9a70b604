import AvroRegistry.Proofs.Compatibility.Reads
import AvroRegistry.Proofs.Runs
import AvroRegistry.Proofs.Schema.Members

/-!
# The check on the values of two types

What one call of the check does on the values of two types, shape by shape. A union hands its
branches on, arrays and maps hand on their parts, two records their fields. Every other pair is
settled on the spot: two types of one primitive kind are read one as the other
(`checkTypes_primitives`), and two of different kinds only by promotion (`checkTypes_apart`). All of
it is stated for a given check of the parts, so that what follows about the whole check is an
induction on its nesting.
-/

namespace AvroRegistry.Compatibility

open Schema (Form FieldHead)

/-! ## Steps that meet no pairs -/

section

variable {α β : Type}

theorem pureStep_ok (a : α) (met : Met) : pureStep (.ok a) met = .ok (a, met) := rfl

theorem pureStep_bind (a : α) (f : α → Checking β) : (pureStep (.ok a) >>= f) = f a := rfl

theorem pureStep_eq_ok {result : Except Breakdown α} {a : α} {met met' : Met} :
    pureStep result met = .ok (a, met') ↔ result = .ok a ∧ met' = met := by
  cases result with
  | error b =>
    constructor
    · intro h
      cases h
    · rintro ⟨h, -⟩
      cases h
  | ok b =>
    constructor
    · intro h
      cases h
      exact ⟨rfl, rfl⟩
    · rintro ⟨h, rfl⟩
      cases h
      rfl

end

/-! ## Kinds -/

/-- The word for the kind of a type. -/
def kindWord : Form → String
  | .name n => n
  | .annotated p _ => p
  | .union _ => "union"
  | .array _ => "array"
  | .map _ => "map"
  | .record _ _ _ _ => "record"
  | .enumeration _ _ _ _ => "enum"
  | .fixed _ _ _ _ => "fixed"

/-- A type that is a bare word, or a word with attributes, is a primitive type. -/
def Grounded (form : Form) : Prop := ∀ p, primitive? form = some p → Schema.isPrimitive p = true

/-- The words for kinds that are no primitive types. -/
theorem primitive_ne {p : String} (primitive : Schema.isPrimitive p = true) :
    p ∉ ["union", "array", "map", "record", "enum", "fixed", "error"] := by
  have all : ∀ p ∈ Schema.primitiveNames,
      p ∉ ["union", "array", "map", "record", "enum", "fixed", "error"] := by decide
  exact all p (List.contains_iff_mem.1 primitive)

theorem kindOf_toJson {form : Form} (grounded : Grounded form) :
    kindOf form.toJson = .ok (.str (kindWord form)) := by
  cases form with
  | annotated p attributes =>
    have other : p ≠ "error" := by
      rintro rfl
      exact primitive_ne (grounded "error" rfl) (by decide)
    show Except.ok (if (Json.str p).isStr "error" then Json.str "record" else Json.str p) = _
    rw [if_neg (by simpa [Json.isStr] using other)]
    rfl
  | record isError full aliases fields => cases isError <;> rfl
  | _ => rfl

theorem describe_toJson {form : Form} (grounded : Grounded form) :
    ∃ text, describe form.toJson = .ok text := by
  unfold describe
  rw [kindOf_toJson grounded]
  dsimp only
  split
  · exact ⟨_, rfl⟩
  · exact ⟨_, rfl⟩

/-- The word of a kind tells the shape of the type. -/
theorem kindWord_union {form : Form} (grounded : Grounded form) :
    kindWord form = "union" ↔ IsUnion form := by
  constructor
  · intro h
    cases form with
    | union branches => exact ⟨branches, rfl⟩
    | name n => exact absurd (h ▸ List.mem_cons_self) (primitive_ne (grounded n rfl))
    | annotated p _ => exact absurd (h ▸ List.mem_cons_self) (primitive_ne (grounded p rfl))
    | _ => simp [kindWord] at h
  · rintro ⟨branches, rfl⟩
    rfl

theorem grounded_of_none {form : Form} (h : primitive? form = none) : Grounded form := by
  intro p found
  rw [h] at found
  cases found

theorem grounded_union (branches : List Form) : Grounded (.union branches) :=
  grounded_of_none rfl

/-! ## Unions and containers -/

section

variable (step : Json → Json → String → Checking (List Violation)) (path : String) {r w : Form}

/-- The common beginning of the check: the kinds of both types. -/
theorem checkTypes_kinds {reader writer : Json} {kr kw : String}
    (readerKind : kindOf reader = .ok (.str kr)) (writerKind : kindOf writer = .ok (.str kw)) :
    checkTypes step reader writer path =
      if (Json.str kw).isStr "union" then
        (do checkAll (fun branch => step reader branch path) (← pureStep writer.elements))
      else if (Json.str kr).isStr "union" then do
        if ← checkSome (fun branch => step branch writer path) (← pureStep reader.elements) then
          return []
        return [⟨.missingUnionBranch (← pureStep (describe writer)), path, none, none⟩]
      else if (Json.str kr).equal (.str kw) then do
        if ← pureStep (isPrimitiveKind (.str kr)) then return []
        match Json.str kr with
        | .str "array" => do
          let readerItems ← pureStep (reader.item "items")
          let writerItems ← pureStep (writer.item "items")
          step readerItems writerItems (path ++ "/items")
        | .str "map" => do
          let readerValues ← pureStep (reader.item "values")
          let writerValues ← pureStep (writer.item "values")
          step readerValues writerValues (path ++ "/values")
        | .str "record" => checkNamed reader writer path (checkRecord step reader writer path)
        | .str "enum" => checkNamed reader writer path (pureStep (checkEnum reader writer path))
        | .str "fixed" => checkNamed reader writer path (pureStep (checkFixed reader writer path))
        | _ => pureStep (checkPromotion (.str kr) (.str kw) reader writer path)
      else pureStep (checkPromotion (.str kr) (.str kw) reader writer path) := by
  unfold checkTypes
  rw [readerKind, writerKind, pureStep_bind]
  exact pureStep_bind _ _

theorem checkTypes_writerUnion (reader : Grounded r) (branches : List Form) :
    checkTypes step r.toJson (Form.union branches).toJson path =
      checkAll (fun b => step r.toJson b path) (branches.map Form.toJson) := by
  rw [checkTypes_kinds step path (kindOf_toJson reader) (kindOf_toJson (grounded_union branches)),
    Schema.toJson_union]
  rfl

/-- A union of the reader is tried branch by branch. -/
theorem checkTypes_tried (branches : List Form) (writer : Grounded w) (single : ¬ IsUnion w)
    {text : String} (described : describe w.toJson = .ok text) :
    checkTypes step (Form.union branches).toJson w.toJson path = (do
      if ← checkSome (fun b => step b w.toJson path) (branches.map Form.toJson) then return []
      return [⟨.missingUnionBranch text, path, none, none⟩]) := by
  rw [checkTypes_kinds step path (kindOf_toJson (grounded_union branches)) (kindOf_toJson writer),
    Schema.toJson_union, described]
  have other : (Json.str (kindWord w)).isStr "union" = false := by
    rw [← kindWord_union writer] at single
    simpa [Json.isStr] using single
  rw [other]
  rfl

theorem checkTypes_readerUnion (branches : List Form) (writer : Grounded w)
    (single : ¬ IsUnion w) :
    ∃ v, checkTypes step (Form.union branches).toJson w.toJson path = (do
      if ← checkSome (fun b => step b w.toJson path) (branches.map Form.toJson) then return []
      return [v]) := by
  obtain ⟨text, described⟩ := describe_toJson writer
  exact ⟨_, checkTypes_tried step path branches writer single described⟩

theorem grounded_array (items : Form) : Grounded (.array items) := grounded_of_none rfl

theorem grounded_map (values : Form) : Grounded (.map values) := grounded_of_none rfl

theorem grounded_record (isError : Bool) (n : String) (aliases : List Json)
    (fields : List (FieldHead × Form)) : Grounded (.record isError n aliases fields) :=
  grounded_of_none rfl

theorem checkTypes_arrays (r w : Form) :
    checkTypes step (Form.array r).toJson (Form.array w).toJson path =
      step r.toJson w.toJson (path ++ "/items") := by
  rw [checkTypes_kinds step path (kindOf_toJson (grounded_array r))
    (kindOf_toJson (grounded_array w))]
  rfl

theorem checkTypes_maps (r w : Form) :
    checkTypes step (Form.map r).toJson (Form.map w).toJson path =
      step r.toJson w.toJson (path ++ "/values") := by
  rw [checkTypes_kinds step path (kindOf_toJson (grounded_map r))
    (kindOf_toJson (grounded_map w))]
  rfl

theorem checkTypes_records (isError isError' : Bool) (n m : String) (aliases aliases' : List Json)
    (fields fields' : List (FieldHead × Form)) :
    checkTypes step (Form.record isError n aliases fields).toJson
        (Form.record isError' m aliases' fields').toJson path =
      checkNamed (Form.record isError n aliases fields).toJson
        (Form.record isError' m aliases' fields').toJson path
        (checkRecord step (Form.record isError n aliases fields).toJson
          (Form.record isError' m aliases' fields').toJson path) := by
  rw [checkTypes_kinds step path (kindOf_toJson (grounded_record isError n aliases fields))
    (kindOf_toJson (grounded_record isError' m aliases' fields'))]
  rfl

end

/-! ## Names -/

/-- What the comparison of two names comes to. -/
def nameVerdict (reader : String) (aliases : List Json) (writer : String) :
    Except Breakdown Bool :=
  if Schema.unqualified reader = Schema.unqualified writer then .ok true
  else aliasNames (.str writer) (Schema.unqualified writer) (.arr aliases)

theorem namesMatch_eq {reader writer : List (String × Json)} {n m : String} {aliases : List Json}
    (readerName : Json.lookup "name" reader = some (.str n))
    (writerName : Json.lookup "name" writer = some (.str m))
    (listed : (Json.lookup "aliases" reader).getD (.arr []) = .arr aliases) :
    namesMatch (.obj reader) (.obj writer) = nameVerdict n aliases m := by
  unfold namesMatch nameVerdict
  rw [Json.item_obj _ _ _ readerName, Json.item_obj _ _ _ writerName, Json.get?, listed]
  rfl

/-- Unqualified names are found for texts only. -/
theorem unqualifiedNames_eq_ok {names : List Json} {shorts : List String}
    (ok : unqualifiedNames names = .ok shorts) (short : String) :
    short ∈ shorts ↔ ∃ a, Json.str a ∈ names ∧ Schema.unqualified a = short := by
  induction names generalizing shorts with
  | nil =>
    cases ok
    simp
  | cons name rest ih =>
    cases name with
    | str full =>
      change (unqualifiedNames rest).map (Schema.unqualified full :: ·) = _ at ok
      cases others : unqualifiedNames rest with
      | error b =>
        rw [others] at ok
        cases ok
      | ok found =>
        rw [others] at ok
        cases ok
        rw [List.mem_cons, ih others]
        constructor
        · rintro (rfl | ⟨a, mem, rfl⟩)
          · exact ⟨full, List.mem_cons_self, rfl⟩
          · exact ⟨a, List.mem_cons_of_mem _ mem, rfl⟩
        · rintro ⟨a, mem, rfl⟩
          rcases List.mem_cons.1 mem with same | later
          · cases same
            exact .inl rfl
          · exact .inr ⟨a, later, rfl⟩
    | _ => cases ok

theorem unqualifiedNames_total {names : List Json} (texts : ∀ a ∈ names, ∃ s, a = .str s) :
    ∃ shorts, unqualifiedNames names = .ok shorts := by
  induction names with
  | nil => exact ⟨[], rfl⟩
  | cons name rest ih =>
    obtain ⟨full, rfl⟩ := texts name List.mem_cons_self
    obtain ⟨shorts, others⟩ := ih fun a mem => texts a (List.mem_cons_of_mem _ mem)
    refine ⟨Schema.unqualified full :: shorts, ?_⟩
    show (unqualifiedNames rest).map (Schema.unqualified full :: ·) = _
    rw [others]
    rfl

theorem aliasNames_arr (m short : String) (aliases : List Json) :
    aliasNames (.str m) short (.arr aliases) =
      if (Json.str m).isIn aliases then .ok true
      else (unqualifiedNames aliases).map (·.contains short) := by
  have listed : (Json.str m).foundIn (.arr aliases) = .ok ((Json.str m).isIn aliases) := rfl
  unfold aliasNames
  rw [listed]
  cases (Json.str m).isIn aliases <;> rfl

/-- The comparison of two names, where it comes to something, is the rule for names. -/
theorem nameVerdict_eq_ok {n m : String} {aliases : List Json} {b : Bool}
    (ok : nameVerdict n aliases m = .ok b) : b = true ↔ NamesAgree n aliases m := by
  unfold nameVerdict at ok
  by_cases same : Schema.unqualified n = Schema.unqualified m
  · rw [if_pos same] at ok
    cases ok
    exact iff_of_true rfl (.inl same)
  · rw [if_neg same, aliasNames_arr] at ok
    by_cases listed : (Json.str m).isIn aliases = true
    · rw [if_pos listed] at ok
      cases ok
      exact iff_of_true rfl (.inr (.inl ((Json.isIn_str_iff m aliases).1 listed)))
    · have absent : Json.str m ∉ aliases := fun mem => listed ((Json.isIn_str_iff m aliases).2 mem)
      rw [if_neg listed] at ok
      cases shorts : unqualifiedNames aliases with
      | error b =>
        rw [shorts] at ok
        cases ok
      | ok found =>
        rw [shorts] at ok
        cases ok
        rw [List.contains_iff_mem, unqualifiedNames_eq_ok shorts]
        constructor
        · exact fun h => .inr (.inr h)
        · rintro (h | h | h)
          · exact absurd h same
          · exact absurd h absent
          · exact h

theorem nameVerdict_total {n m : String} {aliases : List Json}
    (texts : ∀ a ∈ aliases, ∃ s, a = .str s) : ∃ b, nameVerdict n aliases m = .ok b := by
  unfold nameVerdict
  split
  · exact ⟨true, rfl⟩
  · obtain ⟨shorts, found⟩ := unqualifiedNames_total texts
    rw [aliasNames_arr, found]
    split
    · exact ⟨true, rfl⟩
    · exact ⟨_, rfl⟩

/-- The aliases of a value that lists them only if there are some. -/
theorem listed_aliases {members : List (String × Json)} {aliases : List Json}
    (found : Json.lookup "aliases" members = if aliases ≠ [] then some (.arr aliases) else none) :
    (Json.lookup "aliases" members).getD (.arr []) = .arr aliases := by
  rw [found]
  cases aliases with
  | nil => rfl
  | cons first rest => rfl

/-- The aliases of a named type. -/
def aliasesOf : Form → List Json
  | .record _ _ aliases _ => aliases
  | .enumeration _ aliases _ _ => aliases
  | .fixed _ aliases _ _ => aliases
  | _ => []

/-- The members of a named type that its name is compared by. -/
theorem named_members {form : Form} {n : String} (tidy : form.Tidy)
    (defines : form.definedName? = some n) :
    ∃ members, form.toJson = .obj members ∧ Json.lookup "name" members = some (.str n) ∧
      (Json.lookup "aliases" members).getD (.arr []) = .arr (aliasesOf form) := by
  cases form with
  | record isError full aliases fields =>
    cases defines
    have listed : Json.lookup "aliases" (Schema.recordMembers isError n aliases fields) =
        if aliases ≠ [] then some (.arr aliases) else none := by
      simpa using Schema.lookup_recordMembers "aliases" isError n aliases fields
    exact ⟨_, Schema.toJson_record isError n aliases fields,
      Schema.lookup_recordMembers _ _ _ _ _, listed_aliases listed⟩
  | enumeration full aliases symbols default =>
    cases defines
    have listed : Json.lookup "aliases" (Schema.enumMembers n aliases symbols default) =
        if aliases ≠ [] then some (.arr aliases) else none := by
      simpa using Schema.lookup_enumMembers "aliases" n aliases symbols default
    exact ⟨Schema.enumMembers n aliases symbols default, rfl,
      Schema.lookup_enumMembers _ _ _ _ _, listed_aliases listed⟩
  | fixed full aliases size attributes =>
    cases defines
    have kept : ∀ m ∈ attributes, m.1 ∈ Form.fixedKeys := tidy
    have other : "aliases" ∉ Form.fixedKeys := by decide
    have listed : Json.lookup "aliases" (Schema.fixedMembers n aliases size attributes) =
        if aliases ≠ [] then some (.arr aliases) else none := by
      simpa using Schema.lookup_fixedMembers n aliases size kept other
    exact ⟨Schema.fixedMembers n aliases size attributes, rfl,
      Schema.lookup_fixedMembers _ _ _ kept (by decide), listed_aliases listed⟩
  | _ => cases defines

/-- The names of two named types are compared by their full names and the reader's aliases. -/
theorem namesMatch_named {r w : Form} {n m : String} (tidyR : r.Tidy) (tidyW : w.Tidy)
    (reader : r.definedName? = some n) (writer : w.definedName? = some m) :
    namesMatch r.toJson w.toJson = nameVerdict n (aliasesOf r) m := by
  obtain ⟨members, value, named, listed⟩ := named_members tidyR reader
  obtain ⟨members', value', named', -⟩ := named_members tidyW writer
  rw [value, value']
  exact namesMatch_eq named named' listed

/-! ## Pairs settled on the spot -/

/-- A step that meets no pairs and whose outcome is empty exactly if something holds. -/
def Settles (x : Checking (List Violation)) (holds : Prop) : Prop :=
  ∀ met violations met', x met = .ok (violations, met') →
    met' = met ∧ (violations = [] ↔ holds)

/-- A step gives a result, without meeting pairs. -/
def Returns (x : Checking (List Violation)) : Prop :=
  ∀ met, ∃ violations, x met = .ok (violations, met)

theorem settles_pure {violations : List Violation} {holds : Prop}
    (agree : violations = [] ↔ holds) : Settles (pureStep (.ok violations)) holds := by
  intro met found met' ok
  cases ok
  exact ⟨rfl, agree⟩

section

variable {n m : String} {aliases : List Json} {reader writer : Json} {path : String}

/-- A check that begins with names goes on exactly if they agree. -/
theorem checkNamed_eq_ok {rest : Checking (List Violation)} {met met' : Met}
    {violations : List Violation} (names : namesMatch reader writer = nameVerdict n aliases m)
    (ok : checkNamed reader writer path rest met = .ok (violations, met')) :
    NamesAgree n aliases m ∧ rest met = .ok (violations, met') ∨
      ¬ NamesAgree n aliases m ∧ violations ≠ [] ∧ met' = met := by
  unfold checkNamed at ok
  rw [names] at ok
  obtain ⟨b, between, first, second⟩ := Run.bind_eq_ok.1 ok
  obtain ⟨verdict, rfl⟩ := pureStep_eq_ok.1 first
  have agree := nameVerdict_eq_ok verdict
  cases b with
  | true => exact .inl ⟨agree.1 rfl, second⟩
  | false =>
    cases second
    exact .inr ⟨fun h => Bool.noConfusion (agree.2 h), List.cons_ne_nil _ _, rfl⟩

/-- A comparison of names breaks down only on an alias that is no text. -/
theorem unqualifiedNames_eq_error {names : List Json} {e : Breakdown}
    (broke : unqualifiedNames names = .error e) : e = .noAttribute := by
  induction names with
  | nil => cases broke
  | cons name rest ih =>
    cases name with
    | str full =>
      change (unqualifiedNames rest).map (Schema.unqualified full :: ·) = _ at broke
      cases others : unqualifiedNames rest with
      | error b =>
        rw [others] at broke
        cases broke
        exact ih others
      | ok found =>
        rw [others] at broke
        cases broke
    | _ =>
      cases broke
      rfl

theorem nameVerdict_eq_error {e : Breakdown} (broke : nameVerdict n aliases m = .error e) :
    e = .noAttribute := by
  unfold nameVerdict at broke
  split at broke
  · cases broke
  · rw [aliasNames_arr] at broke
    split at broke
    · cases broke
    · cases shorts : unqualifiedNames aliases with
      | error b =>
        rw [shorts] at broke
        cases broke
        exact unqualifiedNames_eq_error shorts
      | ok found =>
        rw [shorts] at broke
        cases broke

/-- A check that begins with names breaks down in their comparison, or goes on and breaks down
there. -/
theorem checkNamed_eq_error {rest : Checking (List Violation)} {met : Met} {e : Breakdown}
    (names : namesMatch reader writer = nameVerdict n aliases m)
    (broke : checkNamed reader writer path rest met = .error e) :
    e = .noAttribute ∨ NamesAgree n aliases m ∧ rest met = .error e := by
  unfold checkNamed at broke
  rw [names] at broke
  rcases Run.bind_eq_error.1 broke with compared | ⟨b, between, first, second⟩
  · cases verdict : nameVerdict n aliases m with
    | error b =>
      rw [verdict] at compared
      cases compared
      exact .inl (nameVerdict_eq_error verdict)
    | ok b =>
      rw [verdict] at compared
      cases compared
  · obtain ⟨verdict, rfl⟩ := pureStep_eq_ok.1 first
    cases b with
    | true => exact .inr ⟨(nameVerdict_eq_ok verdict).1 rfl, second⟩
    | false => cases second

theorem settles_named {violations : List Violation}
    (names : namesMatch reader writer = nameVerdict n aliases m) :
    Settles (checkNamed reader writer path (pureStep (.ok violations)))
      (NamesAgree n aliases m ∧ violations = []) := by
  intro met found met' ok
  rcases checkNamed_eq_ok names ok with ⟨agree, ok⟩ | ⟨differ, some, rfl⟩
  · cases ok
    exact ⟨rfl, fun h => ⟨agree, h⟩, And.right⟩
  · exact ⟨rfl, fun h => absurd h some, fun h => absurd h.1 differ⟩

theorem checkNamed_total (names : namesMatch reader writer = nameVerdict n aliases m)
    (texts : ∀ a ∈ aliases, ∃ s, a = .str s) (rest : Checking (List Violation)) (met : Met) :
    checkNamed reader writer path rest met = rest met ∨
      ∃ violations, checkNamed reader writer path rest met = .ok (violations, met) := by
  obtain ⟨b, verdict⟩ := nameVerdict_total texts
  unfold checkNamed
  rw [names, verdict, pureStep_bind]
  cases b with
  | true => exact .inl rfl
  | false => exact .inr ⟨_, rfl⟩

end

/-- The shapes that two types can have. -/
inductive PairShape : Form → Form → Prop where
  | writerUnion (r : Form) (branches : List Form) : PairShape r (.union branches)
  | readerUnion (branches : List Form) (w : Form) (single : ¬ IsUnion w) :
      PairShape (.union branches) w
  | arrays (r w : Form) : PairShape (.array r) (.array w)
  | maps (r w : Form) : PairShape (.map r) (.map w)
  | records (isError isError' : Bool) (n m : String) (aliases aliases' : List Json)
      (fields fields' : List (FieldHead × Form)) :
      PairShape (.record isError n aliases fields) (.record isError' m aliases' fields')
  | enums (n m : String) (aliases aliases' symbols symbols' : List Json)
      (default default' : Option Json) :
      PairShape (.enumeration n aliases symbols default) (.enumeration m aliases' symbols' default')
  | fixeds (n m : String) (aliases aliases' : List Json) (size size' : Json)
      (attributes attributes' : List (String × Json)) :
      PairShape (.fixed n aliases size attributes) (.fixed m aliases' size' attributes')
  | primitives (r w : Form) (p : String) (known : Schema.isPrimitive p = true)
      (reader : primitive? r = some p) (writer : primitive? w = some p) : PairShape r w
  | apart (r w : Form) (reader : ¬ IsUnion r) (writer : ¬ IsUnion w)
      (differ : kindWord r ≠ kindWord w) : PairShape r w

/-- A type whose kind is the word of a primitive type is that type. -/
theorem primitive?_of_kindWord {form : Form} (known : Schema.isPrimitive (kindWord form) = true) :
    primitive? form = some (kindWord form) := by
  cases form with
  | name n => rfl
  | annotated p attributes => rfl
  | _ => exact absurd known (by simp [kindWord, Schema.isPrimitive, Schema.primitiveNames])

theorem kindWord_of_primitive? {form : Form} {p : String} (h : primitive? form = some p) :
    kindWord form = p := by
  cases form with
  | name n => exact Option.some.inj h
  | annotated q attributes => exact Option.some.inj h
  | _ => cases h

/-- Two types have one of the shapes. -/
theorem pairShape {r w : Form} (reader : Grounded r) (writer : Grounded w) : PairShape r w := by
  by_cases unionW : IsUnion w
  · obtain ⟨branches, rfl⟩ := unionW
    exact .writerUnion r branches
  by_cases unionR : IsUnion r
  · obtain ⟨branches, rfl⟩ := unionR
    exact .readerUnion branches w unionW
  by_cases same : kindWord r = kindWord w
  · cases primitive : primitive? r with
    | some p =>
      have known := reader p primitive
      rw [← kindWord_of_primitive? primitive, same] at known
      have writes := primitive?_of_kindWord known
      rw [← same, kindWord_of_primitive? primitive] at writes
      exact .primitives r w p (reader p primitive) primitive writes
    | none =>
      -- A writer that is a word has a primitive kind, which no other shape has.
      have named : primitive? w = none := by
        cases h : primitive? w with
        | none => rfl
        | some q =>
          have known := writer q h
          rw [← kindWord_of_primitive? h, ← same] at known
          rw [primitive?_of_kindWord known] at primitive
          cases primitive
      cases r with
      | name n => cases primitive
      | annotated p attributes => cases primitive
      | union branches => exact absurd ⟨branches, rfl⟩ unionR
      | array items =>
        cases w with
        | array items' => exact .arrays items items'
        | name _ => cases named
        | annotated _ _ => cases named
        | _ => exact absurd same (by simp [kindWord])
      | map values =>
        cases w with
        | map values' => exact .maps values values'
        | name _ => cases named
        | annotated _ _ => cases named
        | _ => exact absurd same (by simp [kindWord])
      | record isError n aliases fields =>
        cases w with
        | record isError' m aliases' fields' => exact .records _ _ _ _ _ _ _ _
        | name _ => cases named
        | annotated _ _ => cases named
        | _ => exact absurd same (by simp [kindWord])
      | enumeration n aliases symbols default =>
        cases w with
        | enumeration m aliases' symbols' default' => exact .enums _ _ _ _ _ _ _ _
        | name _ => cases named
        | annotated _ _ => cases named
        | _ => exact absurd same (by simp [kindWord])
      | fixed n aliases size attributes =>
        cases w with
        | fixed m aliases' size' attributes' => exact .fixeds _ _ _ _ _ _ _ _
        | name _ => cases named
        | annotated _ _ => cases named
        | _ => exact absurd same (by simp [kindWord])
  · exact .apart r w unionR unionW same

section

variable (step : Json → Json → String → Checking (List Violation)) (path : String)
  (reads : Form → Form → Prop)

/-- Two values of one primitive kind are read one as the other. -/
theorem checkTypes_alike {reader writer : Json} {p : String} (known : Schema.isPrimitive p = true)
    (readerKind : kindOf reader = .ok (.str p)) (writerKind : kindOf writer = .ok (.str p)) :
    checkTypes step reader writer path = pureStep (.ok []) := by
  have union : (Json.str p).isStr "union" = false := by
    have : p ≠ "union" := by
      rintro rfl
      exact primitive_ne known (by decide)
    simpa [Json.isStr] using this
  have same : (Json.str p).equal (.str p) = true := by
    show Json.same (.str p) (.str p) = true
    exact Json.same_refl rfl
  have kind : isPrimitiveKind (.str p) = .ok true := by rw [isPrimitiveKind, known]
  rw [checkTypes_kinds step path readerKind writerKind, union, same, kind]
  rfl

theorem checkTypes_primitives {r w : Form} {p : String} (known : Schema.isPrimitive p = true)
    (reader : primitive? r = some p) (writer : primitive? w = some p) :
    checkTypes step r.toJson w.toJson path = pureStep (.ok []) := by
  have groundedR : Grounded r := fun q h => by
    rw [reader] at h
    cases h
    exact known
  have groundedW : Grounded w := fun q h => by
    rw [writer] at h
    cases h
    exact known
  have readerKind := kindOf_toJson groundedR
  have writerKind := kindOf_toJson groundedW
  rw [kindWord_of_primitive? reader] at readerKind
  rw [kindWord_of_primitive? writer] at writerKind
  exact checkTypes_alike step path known readerKind writerKind

/-- Two values of different kinds that are no unions are compared by promotion. -/
theorem checkTypes_differ {reader writer : Json} {kr kw : String}
    (readerKind : kindOf reader = .ok (.str kr)) (writerKind : kindOf writer = .ok (.str kw))
    (plainR : kr ≠ "union") (plainW : kw ≠ "union") (differ : kr ≠ kw) :
    checkTypes step reader writer path =
      pureStep (checkPromotion (.str kr) (.str kw) reader writer path) := by
  have unionR : (Json.str kr).isStr "union" = false := by simpa [Json.isStr] using plainR
  have unionW : (Json.str kw).isStr "union" = false := by simpa [Json.isStr] using plainW
  have other : (Json.str kr).equal (.str kw) = false := by
    show (kr == kw) = false
    simpa using differ
  rw [checkTypes_kinds step path readerKind writerKind, unionR, unionW, other]
  rfl

/-- Two types of different kinds are read one as the other only by promotion. -/
theorem checkTypes_apart {r w : Form} (reader : Grounded r) (writer : Grounded w)
    (plainR : ¬ IsUnion r) (plainW : ¬ IsUnion w) (differ : kindWord r ≠ kindWord w) :
    ∃ textR textW, checkTypes step r.toJson w.toJson path =
      pureStep (.ok (if (kindWord w, kindWord r) ∈ promotions then []
        else [⟨.typeMismatch textR textW, path, none, none⟩])) := by
  obtain ⟨textR, describedR⟩ := describe_toJson reader
  obtain ⟨textW, describedW⟩ := describe_toJson writer
  refine ⟨textR, textW, ?_⟩
  rw [← kindWord_union reader] at plainR
  rw [← kindWord_union writer] at plainW
  rw [checkTypes_differ step path (kindOf_toJson reader) (kindOf_toJson writer) plainR plainW
    differ]
  unfold checkPromotion
  have promoted : isPromoted (.str (kindWord w)) (.str (kindWord r)) =
      decide ((kindWord w, kindWord r) ∈ promotions) := by
    rw [isPromoted, List.contains_eq_mem]
  rw [promoted, describedR, describedW]
  by_cases found : (kindWord w, kindWord r) ∈ promotions
  · rw [if_pos found, decide_eq_true found]
    rfl
  · rw [if_neg found, decide_eq_false found]
    rfl

theorem matches_apart {r w : Form} (differ : kindWord r ≠ kindWord w) :
    Matches reads r w ↔ (kindWord w, kindWord r) ∈ promotions := by
  constructor
  · intro matched
    cases matched with
    | primitive known reader writer =>
      exact absurd ((kindWord_of_primitive? reader).trans (kindWord_of_primitive? writer).symm)
        differ
    | promotion reader writer promoted =>
      rwa [kindWord_of_primitive? reader, kindWord_of_primitive? writer]
    | _ => exact absurd rfl differ
  · intro promoted
    have primitives : ∀ q ∈ promotions, Schema.isPrimitive q.1 = true ∧
        Schema.isPrimitive q.2 = true := by decide
    obtain ⟨writer, reader⟩ := primitives _ promoted
    exact .promotion (primitive?_of_kindWord reader) (primitive?_of_kindWord writer) promoted

/-- What two enums come to once their names are compared. -/
theorem checkEnum_toJson (n m : String) (aliases aliases' : List Json)
    {symbols symbols' : List Json} (default default' : Option Json)
    (keys : symbols.all Json.isKey = true) (keys' : symbols'.all Json.isKey = true) :
    checkEnum (Form.enumeration n aliases symbols default).toJson
        (Form.enumeration m aliases' symbols' default').toJson path =
      .ok (if (symbols'.filter fun s => !s.isIn symbols).isEmpty || default.isSome then []
        else [⟨.missingEnumSymbols (.str n) (symbols'.filter fun s => !s.isIn symbols),
          path ++ "/symbols", none, none⟩]) := by
  have readerSymbols : symbolsOf (Form.enumeration n aliases symbols default).toJson =
      .ok symbols := by
    show (Json.item "symbols" (.obj (Schema.enumMembers n aliases symbols default))).bind
      Json.elements = _
    rw [Json.item_obj _ _ _ (Schema.lookup_enumMembers _ _ _ _ _)]
    rfl
  have writerSymbols : symbolsOf (Form.enumeration m aliases' symbols' default').toJson =
      .ok symbols' := by
    show (Json.item "symbols" (.obj (Schema.enumMembers m aliases' symbols' default'))).bind
      Json.elements = _
    rw [Json.item_obj _ _ _ (Schema.lookup_enumMembers _ _ _ _ _)]
    rfl
  have fallback : (Form.enumeration n aliases symbols default).toJson.get? "default" = default :=
    Schema.lookup_enumMembers _ _ _ _ _
  have outside : symbolsOutside symbols symbols' =
      .ok (symbols'.filter fun s => !s.isIn symbols) := by
    unfold symbolsOutside
    rw [if_pos keys']
  have named : (Form.enumeration n aliases symbols default).toJson.get? "name" = some (.str n) :=
    Schema.lookup_enumMembers _ _ _ _ _
  unfold checkEnum
  rw [readerSymbols, writerSymbols, fallback, named]
  dsimp only [bind, Except.bind]
  rw [keys, outside, if_neg (show ¬ (!true) = true by decide)]
  dsimp only
  split
  · rfl
  · rfl

/-- What two fixed types come to once their names are compared. -/
theorem checkFixed_toJson (n m : String) (aliases aliases' : List Json) (size size' : Json)
    {attributes attributes' : List (String × Json)}
    (kept : ∀ a ∈ attributes, a.1 ∈ Form.fixedKeys)
    (kept' : ∀ a ∈ attributes', a.1 ∈ Form.fixedKeys) :
    checkFixed (Form.fixed n aliases size attributes).toJson
        (Form.fixed m aliases' size' attributes').toJson path =
      .ok (if size.equal size' then []
        else [⟨.fixedSizeMismatch size' size, path ++ "/size", none, none⟩]) := by
  have readerSize : (Form.fixed n aliases size attributes).toJson.item "size" = .ok size :=
    Json.item_obj _ _ _ (Schema.lookup_fixedMembers _ _ _ kept (by decide))
  have writerSize : (Form.fixed m aliases' size' attributes').toJson.item "size" = .ok size' :=
    Json.item_obj _ _ _ (Schema.lookup_fixedMembers _ _ _ kept' (by decide))
  unfold checkFixed
  rw [readerSize, writerSize]
  show (if size.equal size' then _ else _ : Except Breakdown (List Violation)) = _
  split
  · rfl
  · rfl

theorem checkTypes_enums (n m : String) (aliases aliases' : List Json)
    {symbols symbols' : List Json} (default default' : Option Json)
    (keys : symbols.all Json.isKey = true) (keys' : symbols'.all Json.isKey = true) :
    checkTypes step (Form.enumeration n aliases symbols default).toJson
        (Form.enumeration m aliases' symbols' default').toJson path =
      checkNamed (Form.enumeration n aliases symbols default).toJson
        (Form.enumeration m aliases' symbols' default').toJson path
        (pureStep (.ok (if (symbols'.filter fun s => !s.isIn symbols).isEmpty || default.isSome
          then [] else [⟨.missingEnumSymbols (.str n) (symbols'.filter fun s => !s.isIn symbols),
            path ++ "/symbols", none, none⟩]))) := by
  have outcome := checkEnum_toJson path n m aliases aliases' default default' keys keys'
  have reader : Grounded (.enumeration n aliases symbols default) := grounded_of_none rfl
  have writer : Grounded (.enumeration m aliases' symbols' default') := grounded_of_none rfl
  rw [checkTypes_kinds step path (kindOf_toJson reader) (kindOf_toJson writer), ← outcome]
  rfl

theorem checkTypes_fixeds (n m : String) (aliases aliases' : List Json) (size size' : Json)
    {attributes attributes' : List (String × Json)}
    (kept : ∀ a ∈ attributes, a.1 ∈ Form.fixedKeys)
    (kept' : ∀ a ∈ attributes', a.1 ∈ Form.fixedKeys) :
    checkTypes step (Form.fixed n aliases size attributes).toJson
        (Form.fixed m aliases' size' attributes').toJson path =
      checkNamed (Form.fixed n aliases size attributes).toJson
        (Form.fixed m aliases' size' attributes').toJson path
        (pureStep (.ok (if size.equal size' then []
          else [⟨.fixedSizeMismatch size' size, path ++ "/size", none, none⟩]))) := by
  have outcome := checkFixed_toJson path n m aliases aliases' size size' kept kept'
  have reader : Grounded (.fixed n aliases size attributes) := grounded_of_none rfl
  have writer : Grounded (.fixed m aliases' size' attributes') := grounded_of_none rfl
  rw [checkTypes_kinds step path (kindOf_toJson reader) (kindOf_toJson writer), ← outcome]
  rfl

end

/-! ## Where the check goes on -/

/-- What the check of a pair settles at once is what the rules say of it, and it gives a result if
the aliases to be compared are texts. -/
structure SettledAtOnce (r w : Form) : Prop where
  settles : ∀ step path reads,
    Settles (checkTypes step r.toJson w.toJson path) (Matches reads r w)
  returns : (∀ a ∈ aliasesOf r, ∃ s, a = .str s) → ∀ step path,
    Returns (checkTypes step r.toJson w.toJson path)

/-- What the check does with a pair: it goes on with the parts, or settles the pair at once. -/
inductive Turn : Form → Form → Prop where
  | writerUnion (r : Form) (branches : List Form) : Turn r (.union branches)
  | readerUnion (branches : List Form) (w : Form) (single : ¬ IsUnion w) :
      Turn (.union branches) w
  | arrays (r w : Form) : Turn (.array r) (.array w)
  | maps (r w : Form) : Turn (.map r) (.map w)
  | records (isError isError' : Bool) (n m : String) (aliases aliases' : List Json)
      (fields fields' : List (FieldHead × Form)) :
      Turn (.record isError n aliases fields) (.record isError' m aliases' fields')
  | leaf (r w : Form) (reader : ¬ IsUnion r) (writer : ¬ IsUnion w) (h : SettledAtOnce r w) :
      Turn r w

theorem Settles.congr {x : Checking (List Violation)} {holds holds' : Prop} (h : Settles x holds)
    (same : holds ↔ holds') : Settles x holds' := by
  intro met violations met' ok
  obtain ⟨unchanged, agree⟩ := h met violations met' ok
  exact ⟨unchanged, agree.trans same⟩

theorem returns_named {n m : String} {aliases : List Json} {reader writer : Json} {path : String}
    {violations : List Violation} (names : namesMatch reader writer = nameVerdict n aliases m)
    (texts : ∀ a ∈ aliases, ∃ s, a = .str s) :
    Returns (checkNamed reader writer path (pureStep (.ok violations))) := by
  intro met
  rcases checkNamed_total names texts (pureStep (.ok violations)) met with same | ⟨others, ok⟩
  · exact ⟨violations, same⟩
  · exact ⟨others, ok⟩

theorem settled_enums (n m : String) (aliases aliases' : List Json)
    {symbols symbols' : List Json} (default default' : Option Json)
    (tidyR : Form.Tidy (.enumeration n aliases symbols default))
    (tidyW : Form.Tidy (.enumeration m aliases' symbols' default')) :
    SettledAtOnce (.enumeration n aliases symbols default)
      (.enumeration m aliases' symbols' default') := by
  have names := namesMatch_named tidyR tidyW rfl rfl
  have inside : (symbols'.filter fun s => !s.isIn symbols).isEmpty = true ↔
      ∀ s ∈ symbols', s.isIn symbols = true := by
    simp [List.isEmpty_iff, List.filter_eq_nil_iff]
  constructor
  · intro step path reads
    rw [checkTypes_enums step path n m aliases aliases' default default' tidyR.1 tidyW.1]
    apply (settles_named names).congr
    constructor
    · rintro ⟨agree, none⟩
      apply Matches.enumeration agree
      split at none
      · next fine =>
        rcases Bool.or_eq_true_iff.1 fine with known | fallback
        · exact .inl (inside.1 known)
        · exact .inr fallback
      · cases none
    · intro matched
      cases matched with
      | primitive _ reader => cases reader
      | promotion reader => cases reader
      | enumeration agree known =>
        refine ⟨agree, if_pos (Bool.or_eq_true_iff.2 ?_)⟩
        rcases known with known | fallback
        · exact .inl (inside.2 known)
        · exact .inr fallback
  · intro texts step path
    rw [checkTypes_enums step path n m aliases aliases' default default' tidyR.1 tidyW.1]
    exact returns_named names texts

theorem settled_fixeds (n m : String) (aliases aliases' : List Json) (size size' : Json)
    {attributes attributes' : List (String × Json)}
    (tidyR : Form.Tidy (.fixed n aliases size attributes))
    (tidyW : Form.Tidy (.fixed m aliases' size' attributes')) :
    SettledAtOnce (.fixed n aliases size attributes) (.fixed m aliases' size' attributes') := by
  have names := namesMatch_named tidyR tidyW rfl rfl
  constructor
  · intro step path reads
    rw [checkTypes_fixeds step path n m aliases aliases' size size' tidyR tidyW]
    apply (settles_named names).congr
    constructor
    · rintro ⟨agree, none⟩
      apply Matches.fixed agree
      split at none
      · next sizes => exact sizes
      · cases none
    · intro matched
      cases matched with
      | primitive _ reader => cases reader
      | promotion reader => cases reader
      | fixed agree sizes => exact ⟨agree, if_pos sizes⟩
  · intro texts step path
    rw [checkTypes_fixeds step path n m aliases aliases' size size' tidyR tidyW]
    exact returns_named names texts

theorem settled_primitives {r w : Form} {p : String} (known : Schema.isPrimitive p = true)
    (reader : primitive? r = some p) (writer : primitive? w = some p) : SettledAtOnce r w := by
  constructor
  · intro step path reads
    rw [checkTypes_primitives step path known reader writer]
    exact settles_pure (iff_of_true rfl (.primitive known reader writer))
  · intro _ step path met
    exact ⟨[], by rw [checkTypes_primitives step path known reader writer, pureStep_ok]⟩

theorem settled_apart {r w : Form} (reader : Grounded r) (writer : Grounded w)
    (plainR : ¬ IsUnion r) (plainW : ¬ IsUnion w) (differ : kindWord r ≠ kindWord w) :
    SettledAtOnce r w := by
  constructor
  · intro step path reads
    obtain ⟨_, _, outcome⟩ := checkTypes_apart step path reader writer plainR plainW differ
    rw [outcome]
    refine settles_pure (Iff.trans ?_ (matches_apart reads differ).symm)
    simp
  · intro _ step path met
    obtain ⟨_, _, outcome⟩ := checkTypes_apart step path reader writer plainR plainW differ
    exact ⟨_, by rw [outcome, pureStep_ok]⟩

/-- Every pair of types without defects takes one of the turns. -/
theorem turn {r w : Form} (reader : Grounded r) (writer : Grounded w) (tidyR : r.Tidy)
    (tidyW : w.Tidy) : Turn r w := by
  cases pairShape reader writer with
  | writerUnion _ branches => exact .writerUnion r branches
  | readerUnion branches _ single => exact .readerUnion branches w single
  | arrays r w => exact .arrays r w
  | maps r w => exact .maps r w
  | records => exact .records _ _ _ _ _ _ _ _
  | enums =>
    exact .leaf _ _ (fun ⟨_, h⟩ => nomatch h) (fun ⟨_, h⟩ => nomatch h)
      (settled_enums _ _ _ _ _ _ tidyR tidyW)
  | fixeds =>
    exact .leaf _ _ (fun ⟨_, h⟩ => nomatch h) (fun ⟨_, h⟩ => nomatch h)
      (settled_fixeds _ _ _ _ _ _ tidyR tidyW)
  | primitives _ _ p known r' w' =>
    refine .leaf r w ?_ ?_ (settled_primitives known r' w')
    · rintro ⟨branches, rfl⟩
      cases r'
    · rintro ⟨branches, rfl⟩
      cases w'
  | apart _ _ plainR plainW differ =>
    exact .leaf r w plainR plainW (settled_apart reader writer plainR plainW differ)

end AvroRegistry.Compatibility
