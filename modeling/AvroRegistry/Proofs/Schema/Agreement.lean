import AvroRegistry.Proofs.Schema.Accepted
import AvroRegistry.Proofs.Schema.Normalized

/-!
# Accepting and normalizing resolve names alike

The two walks over a schema are run side by side. `Visits` lists the types that normalizing comes
to, each with its namespace and the names defined by then. A type is `Direct` if normalizing needs
nothing but the rule that accepting follows too: a word is a primitive type or is defined under its
qualified name, and an object has a type of its own. `agrees` says that in whatever accepting lets
through normalizing comes to direct types only, and that both walks define the same names.

What it means that the other two rules of normalizing are out of reach, the look-up of a name as it
stands and the type of an object that is a schema again, is read off `Direct`; that no name is
unknown follows, because a run that ends there has come to a type that is not direct
(`unresolved_visits`).
-/

namespace AvroRegistry.Schema

/-! ## Where normalizing goes -/

/-- Normalizing the first type, in its namespace and with the names defined before it, comes to the
second one, in that namespace and with those names. -/
inductive Visits : String → List String → Json → String → List String → Json → Prop where
  | here (space : String) (defined : List String) (v : Json) :
      Visits space defined v space defined v
  | branch {space : String} {defined between : List String} {before after : List Json}
      {branch : Json} {forms : List Form} {s : String} {D : List String} {w : Json}
      (earlier : normalizeBranches space before defined = .ok (forms, between))
      (inside : Visits space between branch s D w) :
      Visits space defined (.arr (before ++ branch :: after)) s D w
  | items {space : String} {defined : List String} {members : List (String × Json)} {v : Json}
      {s : String} {D : List String} {w : Json}
      (typed : Json.lookup "type" members = some (.str "array"))
      (found : Json.lookup "items" members = some v) (inside : Visits space defined v s D w) :
      Visits space defined (.obj members) s D w
  | values {space : String} {defined : List String} {members : List (String × Json)} {v : Json}
      {s : String} {D : List String} {w : Json}
      (typed : Json.lookup "type" members = some (.str "map"))
      (found : Json.lookup "values" members = some v) (inside : Visits space defined v s D w) :
      Visits space defined (.obj members) s D w
  | field {isError : Bool} {space full : String} {aliases : List Json}
      {defined inner between : List String} {members field : List (String × Json)}
      {before after : List Json} {fields : List (FieldHead × Form)} {v : Json}
      {s : String} {D : List String} {w : Json}
      (typed : Json.lookup "type" members = some (.str (recordKind isError)))
      (introduced : introduce space (.str (recordKind isError)) members defined =
        .ok ((full, aliases), inner))
      (found : Json.lookup "fields" members = some (.arr (before ++ .obj field :: after)))
      (earlier : normalizeFields full (spaceOf full) [] before inner = .ok (fields, between))
      (fieldType : Json.lookup "type" field = some v)
      (inside : Visits (spaceOf full) between v s D w) :
      Visits space defined (.obj members) s D w

/-- Normalizing an array or a map comes to what it comes to in its part. -/
theorem Visits.part {c : Container} {space : String} {defined : List String}
    {members : List (String × Json)} {v : Json} {s : String} {D : List String} {w : Json}
    (typed : Json.lookup "type" members = some (.str c.word))
    (found : Json.lookup c.key members = some v) (inside : Visits space defined v s D w) :
    Visits space defined (.obj members) s D w := by
  cases c with
  | array => exact .items typed found inside
  | map => exact .values typed found inside

/-- Normalizing goes on from a type by the rules that accepting knows. -/
def Direct (space : String) (defined : List String) : Json → Prop
  | .str name => isPrimitive name = true ∨ qualify name space ∈ defined
  | .obj members => ∀ type, Json.lookup "type" members = some type →
      isConstructor type = true ∨ ∃ p, type = .str p ∧ isPrimitive p = true
  | _ => True

/-- A direct word is resolved to itself if it is primitive, and else to its qualified name. -/
theorem resolve_of_direct {name space : String} {defined : List String}
    (direct : Direct space defined (.str name)) :
    resolve name space defined =
      .ok (.name (if isPrimitive name then name else qualify name space), defined) := by
  unfold resolve
  split
  · rfl
  · next plain =>
    have found : qualify name space ∈ defined := direct.resolve_left plain
    change (if defined.contains (qualify name space) then _ else _ : Normalizing Form) defined = _
    rw [if_pos (List.contains_iff_mem.2 found)]
    rfl

/-! ## Unknown names -/

/-- A run ends at an unknown name. -/
def Unresolved {α : Type} (result : Except Refusal α) : Prop :=
  ∃ n, result = .error (.diagnosis (.unresolved n))

theorem resolve_unresolved {name space : String} {defined : List String}
    (unknown : Unresolved (resolve name space defined)) : ¬ Direct space defined (.str name) := by
  obtain ⟨n, failed⟩ := unknown
  intro direct
  rw [resolve_of_direct direct] at failed
  cases failed

theorem lift_not_unresolved {α : Type} {result : Except Breakdown α} {defined : List String} :
    ¬ Unresolved (lift result defined) := by
  rintro ⟨n, failed⟩
  cases result with
  | ok a => cases failed
  | error b => cases failed

theorem introduce_not_unresolved {space : String} {type : Json} {members : List (String × Json)}
    {defined : List String} : ¬ Unresolved (introduce space type members defined) := by
  rintro ⟨n, failed⟩
  by_cases unnamed : ∀ name, Json.lookup "name" members = some (.str name) → name = ""
  · rw [introduce_unnamed unnamed] at failed
    cases failed
  · obtain ⟨name, absent⟩ := not_forall.1 unnamed
    obtain ⟨named, filled⟩ := Classical.not_imp.1 absent
    rw [introduce_named named filled, Run.bind_eq_error] at failed
    rcases failed with failed | ⟨found, between, -, failed⟩
    · exact lift_not_unresolved ⟨n, failed⟩
    · cases failed

theorem normalizeEnum_not_unresolved {space : String} {type : Json}
    {members : List (String × Json)} {defined : List String} :
    ¬ Unresolved (normalizeEnum space type members defined) := by
  rintro ⟨n, failed⟩
  unfold normalizeEnum at failed
  rw [Run.bind_eq_error] at failed
  rcases failed with failed | ⟨⟨full, aliases⟩, between, -, failed⟩
  · exact introduce_not_unresolved ⟨n, failed⟩
  dsimp only at failed
  cases found : Json.lookup "symbols" members with
  | none =>
    rw [found] at failed
    cases failed
  | some symbols =>
    rw [found] at failed
    dsimp only at failed
    rw [Run.bind_eq_error] at failed
    rcases failed with failed | ⟨items, after, -, failed⟩
    · exact lift_not_unresolved ⟨n, failed⟩
    split at failed
    · cases failed
    · change (if !Json.allDistinct items then _ else _ : Normalizing Form) after = _ at failed
      split at failed
      · cases failed
      · cases failed

theorem normalizeFixed_not_unresolved {space : String} {type : Json}
    {members : List (String × Json)} {defined : List String} :
    ¬ Unresolved (normalizeFixed space type members defined) := by
  rintro ⟨n, failed⟩
  unfold normalizeFixed at failed
  rw [Run.bind_eq_error] at failed
  rcases failed with failed | ⟨⟨full, aliases⟩, between, -, failed⟩
  · exact introduce_not_unresolved ⟨n, failed⟩
  dsimp only at failed
  cases found : Json.lookup "size" members with
  | none =>
    rw [found] at failed
    cases failed
  | some size =>
    rw [found] at failed
    cases failed

theorem normalizeUnder_unresolved {key space : String} {members : List (String × Json)}
    {defined : List String} (unknown : Unresolved (normalizeUnder key space members defined)) :
    ∃ v, Json.lookup key members = some v ∧ Unresolved (normalizeType space v defined) := by
  rw [normalizeUnder_eq] at unknown
  cases found : Json.lookup key members with
  | none =>
    obtain ⟨n, failed⟩ := unknown
    rw [found] at failed
    cases failed
  | some v =>
    rw [found] at unknown
    exact ⟨v, rfl, unknown⟩

/-- Normalizing the branches of a union stops at the first branch that cannot be normalized. -/
theorem normalizeBranches_unresolved {space : String} {branches : List Json}
    {defined : List String} (unknown : Unresolved (normalizeBranches space branches defined)) :
    ∃ before branch after forms between, branches = before ++ branch :: after ∧
      normalizeBranches space before defined = .ok (forms, between) ∧
      Unresolved (normalizeType space branch between) := by
  induction branches generalizing defined with
  | nil =>
    obtain ⟨n, failed⟩ := unknown
    rw [normalizeBranches] at failed
    cases failed
  | cons branch rest ih =>
    obtain ⟨n, failed⟩ := unknown
    rw [normalizeBranches, Run.bind_eq_error] at failed
    rcases failed with failed | ⟨first, middle, read, failed⟩
    · refine ⟨[], branch, rest, [], defined, rfl, ?_, n, failed⟩
      rw [normalizeBranches]
      rfl
    · rw [Run.bind_eq_error] at failed
      rcases failed with failed | ⟨others, after, -, failed⟩
      · obtain ⟨before, branch', after, forms, between, rfl, earlier, unknown⟩ := ih ⟨n, failed⟩
        refine ⟨branch :: before, branch', after, first :: forms, between, rfl, ?_, unknown⟩
        exact normalizeBranches_cons_eq_ok.2 ⟨first, middle, forms, read, earlier, rfl⟩
      · cases failed

theorem fieldName_not_unresolved {full : String} {seen : List Json}
    {members : List (String × Json)} {defined : List String} :
    ¬ Unresolved (fieldName full seen members defined) := by
  rintro ⟨n, failed⟩
  unfold fieldName at failed
  cases named : Json.lookup "name" members with
  | none =>
    rw [named] at failed
    cases failed
  | some name =>
    rw [named] at failed
    dsimp only at failed
    split at failed
    · cases failed
    · split at failed
      · cases failed
      · cases failed

/-- Normalizing the fields of a record stops at the first field that cannot be normalized. -/
theorem normalizeFields_unresolved {full space : String} {items seen : List Json}
    {defined : List String}
    (unknown : Unresolved (normalizeFields full space seen items defined)) :
    ∃ before field after fields between v, items = before ++ .obj field :: after ∧
      normalizeFields full space seen before defined = .ok (fields, between) ∧
      Json.lookup "type" field = some v ∧ Unresolved (normalizeType space v between) := by
  induction items generalizing seen defined with
  | nil =>
    obtain ⟨n, failed⟩ := unknown
    rw [normalizeFields] at failed
    cases failed
  | cons item rest ih =>
    obtain ⟨n, failed⟩ := unknown
    cases item with
    | obj field =>
      rw [normalizeFields, Run.bind_eq_error] at failed
      rcases failed with failed | ⟨name, start, named, failed⟩
      · exact absurd ⟨n, failed⟩ fieldName_not_unresolved
      obtain ⟨foundName, key, fresh, rfl⟩ := fieldName_eq_ok.1 named
      rw [Run.bind_eq_error] at failed
      rcases failed with failed | ⟨type, middle, read, failed⟩
      · obtain ⟨v, typed, unknown⟩ := normalizeUnder_unresolved ⟨n, failed⟩
        refine ⟨[], field, rest, [], start, v, rfl, ?_, typed, unknown⟩
        rw [normalizeFields]
        rfl
      obtain ⟨v, typed, read⟩ := normalizeUnder_eq_ok read
      rw [Run.bind_eq_error] at failed
      rcases failed with failed | ⟨aliases, middle', lifted, failed⟩
      · exact absurd ⟨n, failed⟩ lift_not_unresolved
      obtain ⟨sorted, rfl⟩ := lift_eq_ok.1 lifted
      rw [Run.bind_eq_error] at failed
      rcases failed with failed | ⟨others, end_, -, failed⟩
      · obtain ⟨before, field', after, fields, between, v', rfl, earlier, typed', unknown⟩ :=
          ih ⟨n, failed⟩
        refine ⟨.obj field :: before, field', after, (headOf name aliases field, type) :: fields,
          between, v', rfl, ?_, typed', unknown⟩
        exact normalizeFields_cons_eq_ok.2 ⟨name, v, type, middle', aliases, fields, foundName, key,
          fresh, typed, read, sorted, earlier, rfl⟩
      · cases failed
    | _ =>
      rw [normalizeFields] at failed
      · cases failed
      · intro members h
        cases h

/-- Normalizing a union stops at the first branch that cannot be normalized. -/
theorem normalizeUnion_unresolved {branches : List Json} {space : String} {defined : List String}
    (unknown : Unresolved (normalizeType space (.arr branches) defined)) :
    ∃ before branch after forms between, branches = before ++ branch :: after ∧
      normalizeBranches space before defined = .ok (forms, between) ∧
      Unresolved (normalizeType space branch between) := by
  obtain ⟨n, failed⟩ := unknown
  cases branches with
  | nil =>
    rw [normalizeType] at failed
    cases failed
  | cons branch rest =>
    rw [normalizeType, Run.bind_eq_error] at failed
    · rcases failed with failed | ⟨forms, after, -, failed⟩
      · exact normalizeBranches_unresolved ⟨n, failed⟩
      · cases failed
    · intro h
      cases h

/-- Normalizing a record stops at the type of its first field that cannot be normalized. -/
theorem normalizeRecord_unresolved {isError : Bool} {members : List (String × Json)}
    {space : String} {defined : List String}
    (typed : Json.lookup "type" members = some (.str (recordKind isError)))
    (unknown : Unresolved (normalizeType space (.obj members) defined)) :
    ∃ full aliases inner before field after fields between t,
      introduce space (.str (recordKind isError)) members defined =
        .ok ((full, aliases), inner) ∧
      Json.lookup "fields" members = some (.arr (before ++ .obj field :: after)) ∧
      normalizeFields full (spaceOf full) [] before inner = .ok (fields, between) ∧
      Json.lookup "type" field = some t ∧
      Unresolved (normalizeType (spaceOf full) t between) := by
  obtain ⟨n, failed⟩ := unknown
  rw [normalizeType_record space typed, Run.bind_eq_error] at failed
  rcases failed with failed | ⟨⟨full, aliases⟩, inner, introduced, failed⟩
  · exact absurd ⟨n, failed⟩ introduce_not_unresolved
  dsimp only at failed
  rw [Run.bind_eq_error] at failed
  rcases failed with failed | ⟨fields, after, -, failed⟩
  · rw [normalizeFieldsOf_eq] at failed
    split at failed
    · cases failed
    · cases failed
    · next items _ found =>
      obtain ⟨before, field, after, fields, between, t, rfl, earlier, fieldType, unknown⟩ :=
        normalizeFields_unresolved ⟨n, failed⟩
      exact ⟨full, aliases, inner, before, field, after, fields, between, t, introduced, found,
        earlier, fieldType, unknown⟩
    · split at failed
      · cases failed
      · cases failed
  · cases failed

/-- Normalizing an array or a map stops at the type of its parts. -/
theorem normalizePart_unresolved {key space : String} {members : List (String × Json)}
    {defined : List String} {wrap : Form → Form}
    (unknown : Unresolved ((do return wrap (← normalizeUnder key space members) :
      Normalizing Form) defined)) :
    ∃ t, Json.lookup key members = some t ∧ Unresolved (normalizeType space t defined) := by
  obtain ⟨n, failed⟩ := unknown
  rw [Run.bind_eq_error] at failed
  rcases failed with failed | ⟨form, after, -, failed⟩
  · exact normalizeUnder_unresolved ⟨n, failed⟩
  · cases failed

/-- An object whose type is no constructor is not direct if normalizing it ends at an unknown
name. -/
theorem normalizeOther_unresolved {type : Json} {members : List (String × Json)} {space : String}
    {defined : List String} (typed : Json.lookup "type" members = some type)
    (plain : isConstructor type = false)
    (unknown : Unresolved (normalizeType space (.obj members) defined)) :
    ¬ Direct space defined (.obj members) := by
  obtain ⟨n, failed⟩ := unknown
  intro direct
  rcases direct type typed with constructor | ⟨p, rfl, primitive⟩
  · rw [plain] at constructor
    cases constructor
  · rw [normalizeType_other space typed plain, if_neg (by simp)] at failed
    unfold normalizeOther at failed
    dsimp only at failed
    rw [if_pos primitive] at failed
    cases failed

/-- A run that ends at an unknown name has come to a type that is not direct. -/
theorem unresolved_visits (v : Json) : ∀ {space : String} {defined : List String},
    Unresolved (normalizeType space v defined) →
      ∃ s D w, Visits space defined v s D w ∧ ¬ Direct s D w := by
  induction v using Json.induct with
  | step v ih =>
    intro space defined unknown
    cases v with
    | arr branches =>
      obtain ⟨before, branch, after, forms, between, rfl, earlier, unknown⟩ :=
        normalizeUnion_unresolved unknown
      have mem : branch ∈ before ++ branch :: after :=
        List.mem_append_right _ List.mem_cons_self
      obtain ⟨s, D, w, visits, indirect⟩ := ih branch (Json.sizeOf_item mem) unknown
      exact ⟨s, D, w, .branch earlier visits, indirect⟩
    | obj members =>
      have part : ∀ c : Container, Json.lookup "type" members = some (.str c.word) →
          ∃ s D w, Visits space defined (.obj members) s D w ∧ ¬ Direct s D w := by
        intro c typed
        rw [normalizeType_container space typed] at unknown
        obtain ⟨t, found, unknown⟩ := normalizePart_unresolved unknown
        obtain ⟨s, D, w, visits, indirect⟩ := ih t (Json.sizeOf_lookup found) unknown
        exact ⟨s, D, w, .part typed found visits, indirect⟩
      cases shape members with
      | untyped h =>
        obtain ⟨n, failed⟩ := unknown
        rw [normalizeType_untyped space h] at failed
        cases failed
      | record isError h =>
        obtain ⟨full, aliases, inner, before, field, after, fields, between, t, introduced, found,
          earlier, fieldType, unknown⟩ := normalizeRecord_unresolved h unknown
        have smaller : sizeOf t < sizeOf (Json.obj members) := by
          have mem : Json.obj field ∈ before ++ .obj field :: after :=
            List.mem_append_right _ List.mem_cons_self
          have := Json.sizeOf_lookup fieldType
          have := Json.sizeOf_item mem
          have := Json.sizeOf_lookup found
          omega
        obtain ⟨s, D, w, visits, indirect⟩ := ih t smaller unknown
        exact ⟨s, D, w, .field h introduced found earlier fieldType visits, indirect⟩
      | enumeration h =>
        rw [normalizeType_enumeration space h] at unknown
        exact absurd unknown normalizeEnum_not_unresolved
      | fixed h =>
        rw [normalizeType_fixed space h] at unknown
        exact absurd unknown normalizeFixed_not_unresolved
      | array h => exact part .array h
      | map h => exact part .map h
      | other type h plain =>
        exact ⟨space, defined, .obj members, .here _ _ _,
          normalizeOther_unresolved h plain unknown⟩
    | str name =>
      rw [normalizeType_str] at unknown
      exact ⟨space, defined, .str name, .here _ _ _, resolve_unresolved unknown⟩
    | _ =>
      obtain ⟨n, failed⟩ := unknown
      rw [normalizeType] at failed
      · cases failed
      all_goals
        intros
        rename_i h
        cases h

/-! ## Side by side -/

/-- The names after a step are those before it and some new ones, which are declared and known
alike; what was declared once stays declared once. -/
structure Names.Grows (before after : Names) : Prop where
  fresh : ∃ new, after.declared = new ++ before.declared ∧ after.known = new ++ before.known
  once : before.declared.Nodup → after.declared.Nodup

namespace Names.Grows

theorem refl (names : Names) : names.Grows names := ⟨⟨[], rfl, rfl⟩, id⟩

theorem trans {first second third : Names} (h : first.Grows second) (h' : second.Grows third) :
    first.Grows third := by
  obtain ⟨new, declared, known⟩ := h.fresh
  obtain ⟨new', declared', known'⟩ := h'.fresh
  refine ⟨⟨new' ++ new, ?_, ?_⟩, fun once => h'.once (h.once once)⟩
  · rw [declared', declared, List.append_assoc]
  · rw [known', known, List.append_assoc]

theorem define {names : Names} {full : String} (free : full ∉ names.declared) :
    names.Grows (names.define full) :=
  ⟨⟨[full], rfl, rfl⟩, fun once => List.nodup_cons.2 ⟨free, once⟩⟩

end Names.Grows

/-- Normalizing, if it succeeds, has defined what accepting knows, and what it gives is related to
the names before and after. -/
def Follows {α : Type} (related : Names → α → Names → Prop) (before after : Names)
    (outcome : Except Refusal (α × List String)) : Prop :=
  ∀ a defined, outcome = .ok (a, defined) → defined = after.known ∧ related before a after

/-- All types that normalizing comes to from a type are direct. -/
def Clear (space : String) (defined : List String) (v : Json) : Prop :=
  ∀ s D w, Visits space defined v s D w → Direct s D w

/-- The two walks over a type agree: once it is accepted, normalizing follows and its way is
clear. -/
def Agrees (v : Json) : Prop :=
  ∀ (outer : Space) (space : String) (default : Option Json) (names names' : Names),
    outer.Shows space → acceptType outer default v names = .ok ((), names') →
      Follows (fun before _ after => before.Grows after) names names'
        (normalizeType space v names.known) ∧ Clear space names.known v

section

variable (acceptOne : Json → Reading Unit) {acceptAll : List Json → Reading Unit}
  {related : Names → Form → Names → Prop} {space : String}

/-- Accepting branches one after the other and normalizing them agree, if they do on each. -/
theorem branches_agree (none_left : acceptAll [] = pure ())
    (one_first : ∀ v rest, acceptAll (v :: rest) = do acceptOne v; acceptAll rest)
    {branches : List Json} (each : ∀ v ∈ branches, ∀ names names',
      acceptOne v names = .ok ((), names') →
        Follows related names names' (normalizeType space v names.known) ∧
          Clear space names.known v)
    {names names' : Names} (accepted : acceptAll branches names = .ok ((), names')) :
    Follows (Chain related) names names' (normalizeBranches space branches names.known) ∧
      ∀ before branch after forms between, branches = before ++ branch :: after →
        normalizeBranches space before names.known = .ok (forms, between) →
        Clear space between branch := by
  induction branches generalizing names with
  | nil =>
    rw [none_left] at accepted
    cases accepted
    constructor
    · intro forms defined ok
      rw [normalizeBranches] at ok
      cases ok
      exact ⟨rfl, .nil _⟩
    · intro before branch after forms between split
      exact absurd split.symm (List.append_ne_nil_of_right_ne_nil _ (List.cons_ne_nil _ _))
  | cons branch rest ih =>
    rw [one_first] at accepted
    obtain ⟨_, middle, acceptedFirst, acceptedRest⟩ := Run.bind_eq_ok.1 accepted
    obtain ⟨follows, clear⟩ := each branch List.mem_cons_self names middle acceptedFirst
    obtain ⟨followsRest, clearRest⟩ :=
      ih (fun v mem => each v (List.mem_cons_of_mem _ mem)) acceptedRest
    constructor
    · intro forms defined ok
      obtain ⟨first, between, others, read, readRest, rfl⟩ := normalizeBranches_cons_eq_ok.1 ok
      obtain ⟨rfl, here⟩ := follows first between read
      obtain ⟨same, there⟩ := followsRest others defined readRest
      exact ⟨same, .cons here there⟩
    · intro before branch' after forms between split earlier
      cases before with
      | nil =>
        cases split
        rw [normalizeBranches] at earlier
        cases earlier
        exact clear
      | cons first before =>
        cases split
        obtain ⟨form, next, others, read, readRest, rfl⟩ := normalizeBranches_cons_eq_ok.1 earlier
        obtain ⟨rfl, -⟩ := follows form next read
        exact clearRest before branch' after others between rfl readRest

/-- The way from a union is clear if it is from every branch, with the names defined before it. -/
theorem clear_union {defined : List String} {branches : List Json}
    (clear : ∀ before branch after forms between, branches = before ++ branch :: after →
      normalizeBranches space before defined = .ok (forms, between) →
      Clear space between branch) : Clear space defined (.arr branches) := by
  intro s D w visits
  generalize whole : Json.arr branches = v at visits
  cases visits with
  | here =>
    subst whole
    trivial
  | branch earlier inside =>
    cases whole
    exact clear _ _ _ _ _ rfl earlier s D w inside
  | _ => cases whole

end

theorem Names.Grows.of_chain {before after : Names} {forms : List Form}
    (chain : Chain (fun before _ after => before.Grows after) before forms after) :
    before.Grows after := by
  induction chain with
  | nil => exact .refl _
  | cons first _ ih => exact first.trans ih

theorem fields_agree {outer : Space} {space : String} (full : String)
    (stands : outer.Shows space) (seen : List Json) {items : List Json}
    (each : ∀ members, .obj members ∈ items → ∀ v,
      Json.lookup "type" members = some v → Agrees v) {names names' : Names}
    (accepted : acceptFields outer items names = .ok ((), names')) :
    Follows (fun before _ after => before.Grows after) names names'
        (normalizeFields full space seen items names.known) ∧
      ∀ before field after fields between v, items = before ++ .obj field :: after →
        normalizeFields full space seen before names.known = .ok (fields, between) →
        Json.lookup "type" field = some v → Clear space between v := by
  induction items generalizing names seen with
  | nil =>
    rw [acceptFields] at accepted
    cases accepted
    constructor
    · intro forms defined ok
      rw [normalizeFields] at ok
      cases ok
      exact ⟨rfl, .refl _⟩
    · intro before field after fields between v split
      exact absurd split.symm (List.append_ne_nil_of_right_ne_nil _ (List.cons_ne_nil _ _))
  | cons item rest ih =>
    cases item with
    | obj members =>
      obtain ⟨v, default, middle, typed, acceptedFirst, acceptedRest⟩ :=
        acceptFields_cons_eq_ok accepted
      obtain ⟨follows, clear⟩ := each members List.mem_cons_self v typed outer space default names
        middle stands acceptedFirst
      have rest_agrees := fun seen => ih seen
        (fun m mem => each m (List.mem_cons_of_mem _ mem)) acceptedRest
      constructor
      · intro fields defined ok
        obtain
          ⟨name, v', type, between, aliases, others, -, -, -, typed', read, -, readRest, rfl⟩ :=
          normalizeFields_cons_eq_ok.1 ok
        rw [typed] at typed'
        cases typed'
        obtain ⟨rfl, grows⟩ := follows type between read
        obtain ⟨same, grows'⟩ := (rest_agrees (name :: seen)).1 others defined readRest
        exact ⟨same, grows.trans grows'⟩
      · intro before field after fields between v' split earlier typed'
        cases before with
        | nil =>
          cases split
          rw [normalizeFields] at earlier
          cases earlier
          rw [typed] at typed'
          cases typed'
          exact clear
        | cons first before =>
          cases split
          obtain ⟨name, w, type, next, aliases, others, -, -, -, typed'', read, -, readRest, rfl⟩ :=
            normalizeFields_cons_eq_ok.1 earlier
          rw [typed] at typed''
          cases typed''
          obtain ⟨rfl, -⟩ := follows type next read
          exact (rest_agrees (name :: seen)).2 before field after others between v' rfl readRest
            typed'
    | _ =>
      rw [acceptFields] at accepted
      · cases accepted
      · intro members h
        cases h

/-- A definition is read on both sides under one name, and the namespaces inside are related
again. -/
theorem definitions_agree {outer inner : Space} {space full full' : String} {type : Json}
    {members : List (String × Json)} {names between : Names} {aliases : List Json}
    {defined : List String} (stands : outer.Shows space)
    (accepted : fullNameOf outer members names = .ok ((full, inner), between))
    (introduced : introduce space type members names.known = .ok ((full', aliases), defined)) :
    full' = full ∧ inner.Shows (spaceOf full) ∧ between = names ∧
      defined = (names.define full).known := by
  obtain ⟨name, named, -, rfl, -, rfl⟩ := introduce_eq_ok introduced
  obtain ⟨rfl, inside, rfl⟩ := fullNameOf_str stands named accepted
  exact ⟨rfl, inside, rfl, rfl⟩

/-- An object whose type is a word of its own holds no other types that normalizing comes to. -/
theorem clear_of_constructor {space word : String} {defined : List String}
    {members : List (String × Json)} (typed : Json.lookup "type" members = some (.str word))
    (known : isConstructor (.str word) = true) : Direct space defined (.obj members) := by
  intro type found
  rw [typed] at found
  cases found
  exact .inl known

/-- Under `type` stands one word. -/
theorem word_unique {members : List (String × Json)} {word word' : String}
    (h : Json.lookup "type" members = some (.str word))
    (h' : Json.lookup "type" members = some (.str word')) : word = word' :=
  Json.str.inj (Option.some.inj (h.symm.trans h'))

theorem recordKind_mem (isError : Bool) : recordKind isError ∈ ["record", "error"] := by
  cases isError <;> decide

/-- An object without other types in it is the only one that normalizing comes to. -/
theorem visits_leaf {space : String} {defined : List String} {members : List (String × Json)}
    (leaf : ∀ word, Json.lookup "type" members = some (.str word) →
      word ∉ ["record", "error", "array", "map"])
    {s : String} {D : List String} {w : Json} (visits : Visits space defined (.obj members) s D w) :
    s = space ∧ D = defined ∧ w = .obj members := by
  generalize whole : Json.obj members = v at visits
  cases visits with
  | here =>
    cases whole
    exact ⟨rfl, rfl, rfl⟩
  | branch => cases whole
  | items typed =>
    cases whole
    exact absurd (by decide) (leaf _ typed)
  | values typed =>
    cases whole
    exact absurd (by decide) (leaf _ typed)
  | field typed =>
    cases whole
    exact absurd (List.mem_append_left ["array", "map"] (recordKind_mem _)) (leaf _ typed)

/-- A record agrees if the types of its fields do. -/
theorem record_agrees {isError : Bool} {members : List (String × Json)}
    (typed : Json.lookup "type" members = some (.str (recordKind isError)))
    (each : ∀ items, Json.lookup "fields" members = some (.arr items) →
      ∀ field, .obj field ∈ items → ∀ v, Json.lookup "type" field = some v → Agrees v) :
    Agrees (.obj members) := by
  intro outer space default names names' stands accepted
  obtain ⟨full, inner, between, named, free, acceptedFields⟩ := acceptRecord_eq_ok typed accepted
  rw [acceptFieldsOf_eq] at acceptedFields
  constructor
  · intro form defined ok
    obtain ⟨full', aliases, start, first, rest, fields, introduced, found, read, rfl⟩ :=
      normalizeRecord_eq_ok typed ok
    obtain ⟨rfl, inside, rfl, rfl⟩ := definitions_agree stands named introduced
    rw [found] at acceptedFields
    have follows := (fields_agree full' inside [] (each _ found) acceptedFields).1
    obtain ⟨same, grows⟩ := follows fields defined read
    exact ⟨same, (Names.Grows.define free).trans grows⟩
  · intro s D w visits
    generalize whole : Json.obj members = v at visits
    cases visits with
    | here =>
      subst whole
      cases isError
      · exact clear_of_constructor typed rfl
      · exact clear_of_constructor typed rfl
    | field typed' introduced found earlier fieldType inside =>
      cases whole
      obtain ⟨rfl, within, rfl, rfl⟩ := definitions_agree stands named introduced
      rw [found] at acceptedFields
      exact (fields_agree _ within [] (each _ found) acceptedFields).2 _ _ _ _ _ _ rfl
        earlier fieldType s D w inside
    | items typed' =>
      cases whole
      have clash := word_unique typed' typed ▸ recordKind_mem isError
      exact absurd clash (by decide)
    | values typed' =>
      cases whole
      have clash := word_unique typed' typed ▸ recordKind_mem isError
      exact absurd clash (by decide)
    | branch => cases whole

/-- A type that is a definition without parts agrees. -/
theorem leaf_agrees {word : String} {members : List (String × Json)}
    (typed : Json.lookup "type" members = some (.str word)) (known : word = "enum" ∨ word = "fixed")
    (accepts : ∀ {outer default names names'},
      acceptType outer default (.obj members) names = .ok ((), names') →
        ∃ full inner between, fullNameOf outer members names = .ok ((full, inner), between) ∧
          full ∉ between.declared ∧ names' = between.define full)
    (normalizes : ∀ {space form defined defined'},
      normalizeType space (.obj members) defined = .ok (form, defined') →
        ∃ full aliases, introduce space (.str word) members defined =
          .ok ((full, aliases), defined')) :
    Agrees (.obj members) := by
  intro outer space default names names' stands accepted
  obtain ⟨full, inner, between, named, free, rfl⟩ := accepts accepted
  constructor
  · intro form defined ok
    obtain ⟨full', aliases, introduced⟩ := normalizes ok
    obtain ⟨rfl, -, rfl, rfl⟩ := definitions_agree stands named introduced
    exact ⟨rfl, .define free⟩
  · intro s D w visits
    have leaf : ∀ word', Json.lookup "type" members = some (.str word') →
        word' ∉ ["record", "error", "array", "map"] := by
      intro word' typed'
      obtain rfl := word_unique typed typed'
      rcases known with rfl | rfl
      · decide
      · decide
    obtain ⟨rfl, rfl, rfl⟩ := visits_leaf leaf visits
    rcases known with rfl | rfl
    · exact clear_of_constructor typed rfl
    · exact clear_of_constructor typed rfl

/-- Of an array or a map normalizing comes to itself and to what it comes to in its part. -/
theorem visits_container {c : Container} {space : String} {defined : List String}
    {members : List (String × Json)} (typed : Json.lookup "type" members = some (.str c.word))
    {s : String} {D : List String} {w : Json} (visits : Visits space defined (.obj members) s D w) :
    (s = space ∧ D = defined ∧ w = .obj members) ∨
      ∃ v, Json.lookup c.key members = some v ∧ Visits space defined v s D w := by
  generalize whole : Json.obj members = v at visits
  cases visits with
  | here =>
    cases whole
    exact .inl ⟨rfl, rfl, rfl⟩
  | branch => cases whole
  | items typed' found inside =>
    cases whole
    cases c with
    | array => exact .inr ⟨_, found, inside⟩
    | map => exact absurd (word_unique typed typed') (by decide)
  | values typed' found inside =>
    cases whole
    cases c with
    | array => exact absurd (word_unique typed typed') (by decide)
    | map => exact .inr ⟨_, found, inside⟩
  | field typed' =>
    cases whole
    have clash := word_unique typed' typed ▸ recordKind_mem _
    cases c
    all_goals exact absurd clash (by decide)

/-- An array or a map agrees if the type of its part does. -/
theorem container_agrees (c : Container) {members : List (String × Json)}
    (typed : Json.lookup "type" members = some (.str c.word))
    (each : ∀ v, Json.lookup c.key members = some v → Agrees v) : Agrees (.obj members) := by
  intro outer space default names names' stands accepted
  obtain ⟨v, found, acceptedPart⟩ := acceptContainer_eq_ok typed accepted
  obtain ⟨follows, clear⟩ := each v found outer space none names names' stands acceptedPart
  constructor
  · intro form defined ok
    obtain ⟨v', part, found', read, rfl⟩ := normalizeContainer_eq_ok typed ok
    rw [found] at found'
    cases found'
    exact follows part defined read
  · intro s D w visits
    rcases visits_container typed visits with ⟨rfl, rfl, rfl⟩ | ⟨v', found', inside⟩
    · cases c
      all_goals exact clear_of_constructor typed rfl
    · rw [found] at found'
      cases found'
      exact clear s D w inside

/-- An object of any other type agrees: accepting lets through primitive types only. -/
theorem other_agrees {type : Json} {members : List (String × Json)}
    (typed : Json.lookup "type" members = some type) (plain : isConstructor type = false) :
    Agrees (.obj members) := by
  intro outer space default names names' stands accepted
  obtain ⟨⟨p, rfl, primitive⟩, rfl⟩ := acceptOther_eq_ok typed plain accepted
  constructor
  · intro form defined ok
    rw [normalizeType_other space typed plain, if_neg (by simp)] at ok
    rcases normalizeOther_eq_ok ok with ⟨_, -, -, -, rfl⟩ | ⟨_, -, -, rfl⟩
    · exact ⟨rfl, .refl _⟩
    · exact ⟨rfl, .refl _⟩
  · intro s D w visits
    have leaf : ∀ word, Json.lookup "type" members = some (.str word) →
        word ∉ ["record", "error", "array", "map"] := by
      intro word typed' mem
      obtain rfl := word_unique typed typed'
      have : p ∈ constructors := by
        simp only [List.mem_cons, List.not_mem_nil, or_false] at mem
        rcases mem with rfl | rfl | rfl | rfl
        all_goals decide
      exact absurd plain (by simpa [isConstructor] using this)
    obtain ⟨rfl, rfl, rfl⟩ := visits_leaf leaf visits
    intro type found
    rw [typed] at found
    cases found
    exact .inr ⟨p, rfl, primitive⟩

/-- An object agrees if its parts do. -/
theorem object_agrees {members : List (String × Json)}
    (each : ∀ key v, Json.lookup key members = some v → Agrees v)
    (eachField : ∀ items, Json.lookup "fields" members = some (.arr items) →
      ∀ field, .obj field ∈ items → ∀ v, Json.lookup "type" field = some v → Agrees v) :
    Agrees (.obj members) := by
  cases shape members with
  | untyped h =>
    intro outer space default names names' stands accepted
    rw [acceptType_untyped outer default h] at accepted
    cases accepted
  | record isError h => exact record_agrees h eachField
  | enumeration h =>
    refine leaf_agrees h (.inl rfl) (acceptEnum_eq_ok h) fun ok => ?_
    rw [normalizeType_enumeration _ h] at ok
    obtain ⟨full, aliases, _, _, introduced, -⟩ := normalizeEnum_eq_ok ok
    exact ⟨full, aliases, introduced⟩
  | fixed h =>
    refine leaf_agrees h (.inr rfl) (acceptFixed_eq_ok h) fun ok => ?_
    rw [normalizeType_fixed _ h] at ok
    obtain ⟨full, aliases, _, introduced, -⟩ := normalizeFixed_eq_ok ok
    exact ⟨full, aliases, introduced⟩
  | array h => exact container_agrees .array h (each _)
  | map h => exact container_agrees .map h (each _)
  | other type h plain => exact other_agrees h plain

/-- Accepting and normalizing agree on every type. -/
theorem agrees (v : Json) : Agrees v := by
  induction v using Json.induct with
  | step v ih =>
    intro outer space default names names' stands accepted
    cases v with
    | arr branches =>
      obtain ⟨follows, clear⟩ := branches_agree (acceptType outer none)
        (by rw [acceptBranches]) (fun v rest => by rw [acceptBranches])
        (fun b mem names names' => ih b (Json.sizeOf_item mem) outer space none names names' stands)
        (acceptUnion_eq_ok accepted)
      refine ⟨?_, clear_union clear⟩
      intro form defined ok
      obtain ⟨-, forms, rfl, read⟩ := normalizeUnion_eq_ok ok
      obtain ⟨same, chain⟩ := follows forms defined read
      exact ⟨same, .of_chain chain⟩
    | obj members =>
      refine object_agrees (fun key v found => ih v (Json.sizeOf_lookup found)) ?_ outer space
        default names names' stands accepted
      intro items found field mem t typed
      apply ih
      have := Json.sizeOf_lookup typed
      have := Json.sizeOf_item mem
      have := Json.sizeOf_lookup found
      omega
    | str name =>
      obtain ⟨known, rfl⟩ := acceptWord_eq_ok accepted
      have direct : Direct space names'.known (.str name) := by
        rcases known with primitive | ⟨full, meant, found⟩
        · exact .inl primitive
        · rw [referent_eq_ok stands meant] at found
          exact .inr found
      constructor
      · intro form defined ok
        rw [normalizeType_str] at ok
        obtain ⟨n, -, -, rfl⟩ := resolve_eq_ok ok
        exact ⟨rfl, .refl _⟩
      · intro s D w visits
        generalize whole : Json.str name = v at visits
        cases visits with
        | here => subst whole; exact direct
        | _ => cases whole
    | _ =>
      rw [acceptType] at accepted
      · cases accepted
      all_goals
        intros
        rename_i h
        cases h

end AvroRegistry.Schema
