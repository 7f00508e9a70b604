import AvroRegistry.Proofs.Compatibility.OptionalFields
import AvroRegistry.Proofs.Schema.Respelled
import AvroRegistry.Proofs.Schema.Surrounded

/-!
# A schema with a further field

`Extended` says of two values that they are the same schema but for a further field in some record,
at any depth, which has a default and no aliases. Their forms then differ in that field too
(`oneEdit_of_extended`): the type of the field may define further names, but a direct word takes
nothing from them.

The two schemas are normalized side by side. `Accords` says that two steps, the second of which may
come after more names, have related results and leave more names again.
-/

namespace AvroRegistry.Schema

open Compatibility (OneEdit OptionalField)
open Json (lookup)

/-! ## Further fields -/

/-- A record has one field more than another one. -/
structure OneMore (members members' field : List (String × Json)) : Prop where
  typed : ∃ isError, lookup "type" members = some (.str (recordKind isError))
  agree : AgreeBut ["fields"] members members'
  fields : ∃ front back, lookup "fields" members = some (.arr (front ++ back)) ∧
    lookup "fields" members' = some (.arr (front ++ .obj field :: back))

/-- Two types in a namespace are the same but for a further field in some record, which has a
default and no aliases. -/
inductive Extended : String → Json → Json → Prop where
  | here {space : String} {members members' field : List (String × Json)}
      (one : OneMore members members' field) (default : (lookup "default" field).isSome = true)
      (unaliased : fieldAliases field = .ok []) : Extended space (.obj members) (.obj members')
  | inside {space inner : String} {v w v' w' : Json} (part : OnePart space v w inner v' w')
      (extended : Extended inner v' w') : Extended space v w

/-! ## Two steps side by side -/

/-- Two steps, the second of which comes after more names, have related results and leave more
names. -/
def Accords {α β : Type} (related : α → β → Prop) (x : Normalizing α) (y : Normalizing β)
    (defined : List String) : Prop :=
  ∀ wider, defined ⊆ wider → ∀ a after b after', x defined = .ok (a, after) →
    y wider = .ok (b, after') → related a b ∧ after ⊆ after'

section

variable {α β γ δ : Type} {related : α → β → Prop} {related' : γ → δ → Prop}
  {defined : List String}

theorem Widens.accords {x : Normalizing α} (widens : Widens x defined) :
    Accords Eq x x defined := by
  intro wider sub a after b after' ok ok'
  obtain ⟨more, again, sub⟩ := widens a after ok wider sub
  cases again.symm.trans ok'
  exact ⟨rfl, sub⟩

theorem accords_pure {a : α} {b : β} (h : related a b) :
    Accords related (pure a) (pure b) defined := by
  intro wider sub a' after b' after' ok ok'
  cases ok
  cases ok'
  exact ⟨h, sub⟩

theorem Accords.bind {x : Normalizing α} {y : Normalizing β} {f : α → Normalizing γ}
    {g : β → Normalizing δ} (first : Accords related x y defined)
    (then_ : ∀ a b between, x defined = .ok (a, between) → related a b →
      Accords related' (f a) (g b) between) : Accords related' (x >>= f) (y >>= g) defined := by
  intro wider sub c after d after' ok ok'
  obtain ⟨a, between, ran, ok⟩ := Run.bind_eq_ok.1 ok
  obtain ⟨b, between', ran', ok'⟩ := Run.bind_eq_ok.1 ok'
  obtain ⟨h, sub⟩ := first wider sub a between b between' ran ran'
  exact then_ a b between ran h between' sub c after d after' ok ok'

/-- A type under a key accords with another one under that key. -/
theorem accords_under {related : Form → Form → Prop} {key space : String}
    {members members' : List (String × Json)} {v w : Json} (found : lookup key members = some v)
    (found' : lookup key members' = some w)
    (inner : Accords related (normalizeType space v) (normalizeType space w) defined) :
    Accords related (normalizeUnder key space members) (normalizeUnder key space members')
      defined := by
  rw [normalizeUnder_eq, normalizeUnder_eq, found, found']
  exact inner

end

/-- Normalizing leaves the names that were defined before. -/
theorem subset_of_normalizeType {space : String} {v : Json} {form : Form}
    {before after : List String} (ok : normalizeType space v before = .ok (form, after)) :
    before ⊆ after := by
  rw [(normalizeType_built v ok).leaves]
  exact List.subset_append_right _ _

/-! ## Lists of parts -/

section

variable {full space : String} {related : Form → Form → Prop} {defined : List String}

/-- Two lists with the same items but one, at which they are related. -/
def DifferAt {α : Type} (related : α → α → Prop) (xs ys : List α) : Prop :=
  ∃ before a b after, xs = before ++ a :: after ∧ ys = before ++ b :: after ∧ related a b

theorem DifferAt.cons {α : Type} {related : α → α → Prop} {xs ys : List α} (c : α)
    (h : DifferAt related xs ys) : DifferAt related (c :: xs) (c :: ys) := by
  obtain ⟨before, a, b, after, rfl, rfl, h⟩ := h
  exact ⟨c :: before, a, b, after, rfl, rfl, h⟩

/-- Branches of which one is replaced by one that accords. -/
theorem accords_branches {v w : Json} {back : List Json}
    (inner : ∀ defined, Clear space defined v →
      Accords related (normalizeType space v) (normalizeType space w) defined)
    {front : List Json} (clear : BranchesClear space (front ++ v :: back) defined) :
    Accords (DifferAt related) (normalizeBranches space (front ++ v :: back))
      (normalizeBranches space (front ++ w :: back)) defined := by
  induction front generalizing defined with
  | nil =>
    rw [List.nil_append, List.nil_append, normalizeBranches, normalizeBranches]
    refine (inner defined clear.first).bind fun a b between read h => ?_
    have rest := widens_branches (fun u _ _ => widens_clear u) (clear.rest read)
    refine rest.accords.bind fun forms _ _ _ same => accords_pure ?_
    subst same
    exact ⟨[], a, b, forms, rfl, rfl, h⟩
  | cons branch rest ih =>
    rw [List.cons_append, List.cons_append, normalizeBranches, normalizeBranches]
    refine (widens_clear branch clear.first).accords.bind fun form _ between read same => ?_
    subst same
    exact (ih (clear.rest read)).bind fun _ _ _ _ h => accords_pure (h.cons form)

/-- The same field in front of fields that accord. -/
theorem accords_cons {listed : List (FieldHead × Form) → List (FieldHead × Form) → Prop}
    (cons : ∀ f fields fields', listed fields fields' → listed (f :: fields) (f :: fields'))
    {item : Json} {rest rest' : List Json}
    (later : ∀ seen seen' between, FieldsClear full space seen rest between →
      Accords listed (normalizeFields full space seen rest)
        (normalizeFields full space seen' rest') between)
    {seen seen' : List Json} (clear : FieldsClear full space seen (item :: rest) defined) :
    Accords listed (normalizeFields full space seen (item :: rest))
      (normalizeFields full space seen' (item :: rest')) defined := by
  intro wider sub fields after fields' after' ok ok'
  cases item with
  | obj field =>
    obtain ⟨name, v, type, between, aliases, others, named, key, fresh, typed, read, sorted,
      readRest, rfl⟩ := normalizeFields_cons_eq_ok.1 ok
    obtain ⟨name', v', type', between', aliases', others', named', -, -, typed', read', sorted',
      readRest', rfl⟩ := normalizeFields_cons_eq_ok.1 ok'
    cases named.symm.trans named'
    cases typed.symm.trans typed'
    cases sorted.symm.trans sorted'
    obtain ⟨rfl, sub⟩ := (widens_clear v (clear.first typed)).accords wider sub _ _ _ _ read read'
    have clearRest := clear.rest named key fresh typed read sorted
    obtain ⟨h, sub⟩ := later _ _ between clearRest between' sub _ _ _ _ readRest readRest'
    exact ⟨cons _ _ _ h, sub⟩
  | _ =>
    rw [normalizeFields] at ok
    · cases ok
    · simp

/-- Fields that come after others of other names. -/
theorem accords_fields {items seen : List Json} (seen' : List Json)
    (clear : FieldsClear full space seen items defined) :
    Accords Eq (normalizeFields full space seen items) (normalizeFields full space seen' items)
      defined := by
  induction items generalizing seen seen' defined with
  | nil =>
    rw [normalizeFields, normalizeFields]
    exact accords_pure rfl
  | cons item rest ih =>
    refine accords_cons (fun f _ _ same => ?_) (fun _ seen' _ clear => ih seen' clear) clear
    rw [same]

/-- The fields of a record and those with a further field, which has a default and no aliases. -/
def FieldInserted (fields fields' : List (FieldHead × Form)) : Prop :=
  ∃ before after field, fields = before ++ after ∧ fields' = before ++ field :: after ∧
    field.1.default.isSome = true ∧ field.1.aliases = []

theorem FieldInserted.cons {fields fields' : List (FieldHead × Form)} (f : FieldHead × Form)
    (h : FieldInserted fields fields') : FieldInserted (f :: fields) (f :: fields') := by
  obtain ⟨before, after, field, rfl, rfl, default, unaliased⟩ := h
  exact ⟨f :: before, after, field, rfl, rfl, default, unaliased⟩

/-- Fields among which a further one comes. Its type may define names, which the fields behind it
find defined. -/
theorem accords_inserted {field : List (String × Json)}
    (default : (lookup "default" field).isSome = true) (unaliased : fieldAliases field = .ok [])
    {front back seen seen' : List Json}
    (clear : FieldsClear full space seen (front ++ back) defined) :
    Accords FieldInserted (normalizeFields full space seen (front ++ back))
      (normalizeFields full space seen' (front ++ .obj field :: back)) defined := by
  induction front generalizing seen seen' defined with
  | nil =>
    intro wider sub fields after fields' after' ok ok'
    rw [List.nil_append] at clear ok ok'
    obtain ⟨name, v, type, between, aliases, others, -, -, -, -, read, sorted, readRest, rfl⟩ :=
      normalizeFields_cons_eq_ok.1 ok'
    cases unaliased.symm.trans sorted
    have further := List.Subset.trans sub (subset_of_normalizeType read)
    obtain ⟨rfl, sub⟩ :=
      accords_fields (name :: seen') clear between further _ _ _ _ ok readRest
    exact ⟨⟨[], fields, (headOf name [] field, type), rfl, rfl, default, rfl⟩, sub⟩
  | cons item rest ih =>
    exact accords_cons (fun f _ _ => FieldInserted.cons f) (fun _ _ _ clear => ih clear) clear

/-- Fields of which one gets another type. -/
theorem accords_retyped {field field' : List (String × Json)} {v w : Json}
    (agree : AgreeBut ["type"] field field') (found : lookup "type" field = some v)
    (found' : lookup "type" field' = some w)
    (inner : ∀ defined, Clear space defined v →
      Accords related (normalizeType space v) (normalizeType space w) defined)
    {front back seen seen' : List Json}
    (clear : FieldsClear full space seen (front ++ .obj field :: back) defined) :
    Accords (DifferAt fun f g => f.1 = g.1 ∧ related f.2 g.2)
      (normalizeFields full space seen (front ++ .obj field :: back))
      (normalizeFields full space seen' (front ++ .obj field' :: back)) defined := by
  induction front generalizing seen seen' defined with
  | nil =>
    intro wider sub fields after fields' after' ok ok'
    rw [List.nil_append] at clear ok ok'
    obtain ⟨name, _, type, between, aliases, others, named, key, fresh, typed, read, sorted,
      readRest, rfl⟩ := normalizeFields_cons_eq_ok.1 ok
    obtain ⟨name', _, type', between', aliases', others', named', -, -, typed', read', sorted',
      readRest', rfl⟩ := normalizeFields_cons_eq_ok.1 ok'
    cases found.symm.trans typed
    cases found'.symm.trans typed'
    rw [← agree.same "name" (by simp)] at named'
    rw [← fieldAliases_congr (agree.same "aliases" (by simp))] at sorted'
    cases named.symm.trans named'
    cases sorted.symm.trans sorted'
    have head : headOf name aliases field = headOf name aliases field' := by
      unfold headOf
      rw [agree.same "default" (by simp), fieldOrder_congr (agree.same "order" (by simp))]
    obtain ⟨h, sub⟩ := inner defined (clear.first found) wider sub _ _ _ _ read read'
    have later := accords_fields (name :: seen') (clear.rest named key fresh found read sorted)
    obtain ⟨rfl, sub⟩ := later between' sub _ _ _ _ readRest readRest'
    exact ⟨⟨[], _, _, others, rfl, rfl, head, h⟩, sub⟩
  | cons item rest ih =>
    exact accords_cons (fun f _ _ => DifferAt.cons f) (fun _ _ _ clear => ih clear) clear

end

/-! ## Types -/

section

variable {space : String} {defined : List String} {members members' : List (String × Json)}

/-- What is defined by two definitions of one name accords. -/
theorem accords_introduce {type : Json} (agree : AgreeBut ["fields"] members members') :
    Accords Eq (introduce space type members) (introduce space type members') defined := by
  rintro wider sub ⟨full, aliases⟩ after ⟨full', aliases'⟩ after' ok ok'
  obtain ⟨name, named, -, rfl, sorted, rfl⟩ := introduce_eq_ok ok
  obtain ⟨name', named', -, rfl, sorted', rfl⟩ := introduce_eq_ok ok'
  rw [← agree.same "name" (by simp), named] at named'
  cases named'
  have inside : enclosing space members' = enclosing space members := by
    unfold enclosing
    rw [agree.same "namespace" (by simp)]
  rw [inside, ← typeAliases_congr (agree.same "aliases" (by simp)), sorted] at sorted'
  cases sorted'
  rw [inside]
  exact ⟨rfl, List.cons_subset_cons _ sub⟩

/-- Two records that differ in their fields accord if the fields do. -/
theorem accords_record {listed : List (FieldHead × Form) → List (FieldHead × Form) → Prop}
    {related : Form → Form → Prop} {isError : Bool} {items items' : List Json}
    (typed : lookup "type" members = some (.str (recordKind isError)))
    (agree : AgreeBut ["fields"] members members')
    (found : lookup "fields" members = some (.arr items))
    (found' : lookup "fields" members' = some (.arr items'))
    (fields : FieldsClear (fullName space members) (spaceOf (fullName space members)) [] items
        (fullName space members :: defined) →
      Accords listed
        (normalizeFields (fullName space members) (spaceOf (fullName space members)) [] items)
        (normalizeFields (fullName space members) (spaceOf (fullName space members)) [] items')
        (fullName space members :: defined))
    (made : ∀ full aliases fields fields', listed fields fields' →
      related (.record isError full aliases fields) (.record isError full aliases fields'))
    (clear : Clear space defined (.obj members)) :
    Accords related (normalizeType space (.obj members)) (normalizeType space (.obj members'))
      defined := by
  intro wider sub form after form' after' ok ok'
  obtain ⟨full, aliases, inner, first, rest, _, introduced, items, read, rfl⟩ :=
    normalizeRecord_eq_ok typed ok
  obtain ⟨_, _, inner', _, _, _, introduced', items', read', rfl⟩ :=
    normalizeRecord_eq_ok (agree.same "type" (by simp) ▸ typed) ok'
  obtain ⟨same, sub⟩ := accords_introduce agree wider sub _ _ _ _ introduced introduced'
  cases same
  cases found.symm.trans items
  cases found'.symm.trans items'
  have clearFields : FieldsClear full (spaceOf full) [] (first :: rest) inner := by
    intro before field after fields between v split earlier fieldType s D w visits
    rw [split] at found
    exact clear s D w (.field typed introduced found earlier fieldType visits)
  obtain ⟨name, named, filled, whole, sorted, rfl⟩ := introduce_eq_ok introduced
  rw [(Introduced.mk ⟨name, named, filled, whole⟩ sorted).fullName_eq] at fields
  obtain ⟨h, sub⟩ := fields clearFields inner' sub _ _ _ _ read read'
  exact ⟨made _ _ _ _ h, sub⟩

/-- Two arrays or two maps that agree elsewhere accord if their parts do. -/
theorem accords_container (c : Container) {v w : Json}
    (typed : lookup "type" members = some (.str c.word)) (agree : AgreeBut [c.key] members members')
    (found : lookup c.key members = some v) (found' : lookup c.key members' = some w)
    (within : ∀ {defined}, Clear space defined v →
      Accords (OneEdit OptionalField) (normalizeType space v) (normalizeType space w) defined)
    (clear : Clear space defined (.obj members)) :
    Accords (OneEdit OptionalField) (normalizeType space (.obj members))
      (normalizeType space (.obj members')) defined := by
  have typed' := agree.same "type" (by simpa using c.type_ne_key) ▸ typed
  rw [normalizeType_container space typed, normalizeType_container space typed']
  have clearPart : Clear space defined v := fun s D u visits =>
    clear s D u (.part typed found visits)
  refine (accords_under found found' (within clearPart)).bind fun _ _ _ _ one => accords_pure ?_
  cases c with
  | array => exact .items one
  | map => exact .values one

/-- Two types that differ in one part accord if the parts do. -/
theorem accords_part {inner : String} {v w v' w' : Json} (part : OnePart space v w inner v' w')
    (within : ∀ {defined}, Clear inner defined v' →
      Accords (OneEdit OptionalField) (normalizeType inner v') (normalizeType inner w') defined)
    (clear : Clear space defined v) :
    Accords (OneEdit OptionalField) (normalizeType space v) (normalizeType space w) defined := by
  cases part with
  | branch front back =>
    intro wider sub form after form' after' ok ok'
    obtain ⟨-, forms, rfl, read⟩ := normalizeUnion_eq_ok ok
    obtain ⟨-, forms', rfl, read'⟩ := normalizeUnion_eq_ok ok'
    have clearBranches : BranchesClear space (front ++ v' :: back) defined := by
      intro before branch later forms between split earlier s D u visits
      rw [split] at clear
      exact clear s D u (.branch earlier visits)
    obtain ⟨⟨before, a, b, behind, rfl, rfl, one⟩, sub⟩ :=
      accords_branches (fun _ => within) clearBranches wider sub _ _ _ _ read read'
    exact ⟨.branch before behind one, sub⟩
  | items typed agree found found' =>
    exact accords_container .array typed agree found found' within clear
  | values typed agree found found' =>
    exact accords_container .map typed agree found found' within clear
  | fieldType one agree found found' =>
    obtain ⟨⟨isError, typed⟩, agreeBut, front, back, listed, listed'⟩ := one
    refine accords_record typed agreeBut listed listed'
      (accords_retyped agree found found' fun _ => within) ?_ clear
    rintro full aliases _ _ ⟨before, ⟨head, a⟩, ⟨_, b⟩, behind, rfl, rfl, rfl, one⟩
    exact .field isError full aliases before behind head one

/-- Normalizing a schema and the one with a further field gives forms that differ in it. -/
theorem accords_extended {v w : Json} (extended : Extended space v w) :
    ∀ {defined}, Clear space defined v →
      Accords (OneEdit OptionalField) (normalizeType space v) (normalizeType space w) defined := by
  induction extended with
  | here one default unaliased =>
    intro defined clear
    obtain ⟨⟨isError, typed⟩, agree, front, back, listed, listed'⟩ := one
    refine accords_record typed agree listed listed' (accords_inserted default unaliased) ?_ clear
    rintro full aliases _ _ ⟨before, behind, field, rfl, rfl, default, unaliased⟩
    exact .here (.inserted isError full aliases before behind field default unaliased)
  | inside part _ ih => exact fun clear => accords_part part ih clear

end

/-- The forms of an unmarked schema and of one with a further field differ in that field. -/
theorem oneEdit_of_extended {schema schema' v v' : Json} {raw raw' : String} {c c' : Canonical}
    (given : submitted schema = .ok (raw, v)) (given' : submitted schema' = .ok (raw', v'))
    (ok : canonicalize schema = .ok c) (ok' : canonicalize schema' = .ok c')
    (unmarked : Unmarked v) (extended : Extended "" v v') :
    OneEdit OptionalField c.form c'.form := by
  obtain ⟨accepted, normalized⟩ := Compatibility.canonicalize_eq_ok given ok
  obtain ⟨-, normalized'⟩ := Compatibility.canonicalize_eq_ok given' ok'
  obtain ⟨names, accepted⟩ := Compatibility.accept_eq accepted
  obtain ⟨after, read⟩ := Compatibility.normalize_eq normalized
  obtain ⟨after', read'⟩ := Compatibility.normalize_eq normalized'
  have clear : Clear "" [] v := (top_agrees v unmarked accepted).2
  exact (accords_extended extended clear [] (List.nil_subset _) _ _ _ _ read read').1

/-! ## Verdicts -/

open Compatibility (isCompatible box boxValue aliased aliasedValue)

/-- An unmarked schema and the same schema with a further field in some record, which has a default
and no aliases, are compatible with each other under every mode: no verdict is against them, and
there is one if the aliases in the type of the field are texts as well. -/
theorem extended_compatible {schema schema' v v' : Json} {raw raw' : String} {c c' : Canonical}
    (given : submitted schema = .ok (raw, v)) (given' : submitted schema' = .ok (raw', v'))
    (ok : canonicalize schema = .ok c) (ok' : canonicalize schema' = .ok c')
    (unmarked : Unmarked v) (extended : Extended "" v v')
    (numbers : v.Everywhere fun w => w ≠ .float .nan)
    (aliases : ∀ members ∈ objects v, TextAliases members)
    (once : c'.form.definedNames.Nodup) (mode : Compatibility.Mode) :
    (∀ verdict, isCompatible c'.value [c.value] mode = .ok verdict → verdict = true) ∧
      (∀ verdict, isCompatible c.value [c'.value] mode = .ok verdict → verdict = true) ∧
      ((∀ members ∈ objects v', TextAliases members) →
        isCompatible c'.value [c.value] mode = .ok true ∧
          isCompatible c.value [c'.value] mode = .ok true) := by
  have one := oneEdit_of_extended given given' ok ok' unmarked extended
  have linked := Compatibility.linked_of_canonicalize ok
  have linked' := Compatibility.linked_of_canonicalize ok'
  have sizes := Compatibility.sizesEqual_of_canonicalize given ok numbers
  have inserted := Compatibility.reads_inserted one linked linked' once sizes
  have original := Compatibility.reads_original one linked linked' once sizes
  have textual := Compatibility.textual_of_canonicalize given ok aliases
  have onward : ∀ found, Compatibility.checkReaderWriter c'.value c.value = .ok found →
      found = [] := fun _ => Compatibility.eq_nil_of_reads linked' linked inserted
  have back : Compatibility.checkReaderWriter c.value c'.value = .ok [] :=
    Compatibility.checkReaderWriter_of_reads linked linked' textual original
  have back_nil : ∀ found, Compatibility.checkReaderWriter c.value c'.value = .ok found →
      found = [] := fun _ => Compatibility.eq_nil_of_reads linked linked' original
  refine ⟨fun _ => Compatibility.eq_true_of_isCompatible onward back_nil,
    fun _ => Compatibility.eq_true_of_isCompatible back_nil onward, fun aliases' => ?_⟩
  have textual' := Compatibility.textual_of_canonicalize given' ok' aliases'
  have onward : Compatibility.checkReaderWriter c'.value c.value = .ok [] :=
    Compatibility.checkReaderWriter_of_reads linked' linked textual' inserted
  exact ⟨Compatibility.isCompatible_of_passes onward back mode,
    Compatibility.isCompatible_of_passes back onward mode⟩

/-- The value of a tree whose nodes refer to each other and whose root has two of them. -/
def treeValue (fields : List Json) : Json :=
  .obj [("type", .str "record"), ("name", .str "Tree"), ("fields", .arr [
    .obj [("name", .str "left"), ("type", .arr [.str "null",
      .obj [("type", .str "record"), ("name", .str "Node"), ("fields", .arr fields)]])],
    .obj [("name", .str "right"), ("type", .str "Node")]])]

/-- A node leads to another one or to none. -/
def nextValue : Json :=
  .obj [("name", .str "next"), ("type", .arr [.str "null", .str "Node"])]

/-- A node has a colour, which is red unless it is given. -/
def colourValue : Json :=
  .obj [("name", .str "colour"), ("type", .obj [("type", .str "enum"), ("name", .str "Colour"),
    ("symbols", .arr [.str "red", .str "black"])]), ("default", .str "red")]

/-- The form of such a tree. -/
def treeForm (fields : List (FieldHead × Form)) : Form :=
  .record false "Tree" [] [(⟨.str "left", none, [], none⟩,
      .union [.name "null", .record false "Node" [] fields]),
    (⟨.str "right", none, [], none⟩, .name "Node")]

/-- The forms of these fields. -/
def nextForm : FieldHead × Form :=
  (⟨.str "next", none, [], none⟩, .union [.name "null", .name "Node"])

/-- The field of the colour. -/
def colourForm : FieldHead × Form :=
  (⟨.str "colour", some (.str "red"), [], none⟩,
    .enumeration "Colour" [] [.str "red", .str "black"] none)

/-- Trees without and with colours are compatible with each other under every mode. -/
theorem coloured_compatible :
    ∃ c c' : Canonical, canonicalize (treeValue [nextValue]) = .ok c ∧
      canonicalize (treeValue [nextValue, colourValue]) = .ok c' ∧
      ∀ mode, isCompatible c'.value [c.value] mode = .ok true ∧
        isCompatible c.value [c'.value] mode = .ok true := by
  have given : submitted (treeValue [nextValue]) =
      .ok ((treeValue [nextValue]).encode Json.spaced, treeValue [nextValue]) :=
    submitted_value (Json.readable_of_exact (by decide)) rfl rfl
  have given' : submitted (treeValue [nextValue, colourValue]) =
      .ok ((treeValue [nextValue, colourValue]).encode Json.spaced,
        treeValue [nextValue, colourValue]) :=
    submitted_value (Json.readable_of_exact (by decide)) rfl rfl
  have ok : canonicalize (treeValue [nextValue]) =
      .ok ⟨treeForm [nextForm], (treeValue [nextValue]).encode Json.spaced⟩ :=
    Compatibility.canonicalize_eq given rfl rfl
  have ok' : canonicalize (treeValue [nextValue, colourValue]) =
      .ok ⟨treeForm [nextForm, colourForm],
        (treeValue [nextValue, colourValue]).encode Json.spaced⟩ :=
    Compatibility.canonicalize_eq given' rfl rfl
  have unmarked : Unmarked (treeValue [nextValue]) := unmarked_of_not_mentions _ (by decide)
  have extended : Extended "" (treeValue [nextValue]) (treeValue [nextValue, colourValue]) := by
    refine .inside (.fieldType ⟨⟨false, rfl⟩, ?_, [], _, rfl, rfl⟩ ?_ rfl rfl)
      (.inside (.branch [.str "null"] [] _ _)
        (.here ⟨⟨false, rfl⟩, ?_, [nextValue], [], rfl, rfl⟩ rfl rfl))
    all_goals exact .of_keys (by decide) (by decide) (by decide)
  have texts : ∀ members ∈ objects (treeValue [nextValue]) ++
      objects (treeValue [nextValue, colourValue]), lookup "aliases" members = none := by decide
  have numbers : ∀ w ∈ (treeValue [nextValue]).parts, w ≠ .float .nan := by decide
  refine ⟨_, _, ok, ok', fun mode => ?_⟩
  refine (extended_compatible given given' ok ok' unmarked extended numbers ?_ (by decide)
    mode).2.2 ?_
  · exact fun members mem => textAliases_of_none (texts members (List.mem_append_left _ mem))
  · exact fun members mem => textAliases_of_none (texts members (List.mem_append_right _ mem))

/-! ## A field whose type cannot be compared -/

/-- The value of a union of a record with some fields and of a box of the same unqualified name. -/
def namesakesValue (fields : List Json) : Json :=
  .arr [.obj [("type", .str "record"), ("name", .str "R"), ("fields", .arr fields)],
    boxValue "b.R" "n" (boxValue "U" "x" (.str "int"))]

/-- The form of such a union. -/
def namesakes (fields : List (FieldHead × Form)) : Form :=
  .union [.record false "R" [] fields, box "b.R" "n" (box "b.U" "x" (.name "int"))]

/-- A field without a default. -/
def countValue : Json := .obj [("name", .str "p"), ("type", .str "int")]

/-- Its form. -/
def countForm : FieldHead × Form := (⟨.str "p", none, [], none⟩, .name "int")

/-- A field with a default, whose type has an alias that is a list. -/
def listedValue : Json :=
  .obj [("name", .str "n"), ("type", aliasedValue "T" (.arr [.str "x"])),
    ("default", .obj [("x", .int 0)])]

/-- Its form. -/
def listedForm : FieldHead × Form :=
  (⟨.str "n", some (.obj [("x", .int 0)]), [], none⟩, aliased "T" (.arr [.str "x"]))

theorem normalize_listed :
    normalize (namesakesValue [countValue, listedValue]) =
      .ok (namesakes [countForm, listedForm]) := by
  have fields : normalizeFields "R" "" [] [countValue, listedValue] ["R"] =
      .ok ([countForm, listedForm], ["T", "R"]) := by
    have typed : normalizeType "" (aliasedValue "T" (.arr [.str "x"])) ["R"] =
        .ok (aliased "T" (.arr [.str "x"]), ["T", "R"]) :=
      Compatibility.normalizeType_aliased (by decide) rfl ["R"]
    refine normalizeFields_cons_eq_ok.2 ⟨.str "p", .str "int", .name "int", ["R"], [], [listedForm],
      rfl, rfl, rfl, rfl, rfl, rfl, ?_, rfl⟩
    exact normalizeFields_cons_eq_ok.2 ⟨.str "n", aliasedValue "T" (.arr [.str "x"]),
      aliased "T" (.arr [.str "x"]), ["T", "R"], [], [], rfl, rfl, rfl, rfl, typed, rfl, rfl, rfl⟩
  have record : normalizeType "" (.obj [("type", .str "record"), ("name", .str "R"),
      ("fields", .arr [countValue, listedValue])]) [] =
      .ok (.record false "R" [] [countForm, listedForm], ["T", "R"]) := by
    have typed : lookup "type" [("type", .str "record"), ("name", .str "R"),
        ("fields", .arr [countValue, listedValue])] = some (.str (recordKind false)) := rfl
    rw [normalizeType_record "" typed, Run.bind_of_ok (a := ("R", [])) (t := ["R"]) rfl]
    dsimp only
    rw [normalizeFieldsOf_eq]
    exact Run.bind_of_ok fields _
  show (normalizeType "" (namesakesValue [countValue, listedValue]) []).map (·.1) = _
  have box_ : normalizeBranches "" [boxValue "b.R" "n" (boxValue "U" "x" (.str "int"))]
      ["T", "R"] = .ok ([box "b.R" "n" (box "b.U" "x" (.name "int"))], ["b.U", "b.R", "T", "R"]) :=
    rfl
  rw [namesakesValue, normalizeType,
    Run.bind_of_ok (normalizeBranches_cons_eq_ok.2 ⟨_, _, _, record, box_, rfl⟩)]
  · rfl
  · simp

/-- A further field may have a type with an alias that is a list. Such a schema is accepted, and a
check with it as the reader breaks down. -/
theorem extended_breaks_down :
    ∃ c c' : Canonical, canonicalize (namesakesValue [countValue]) = .ok c ∧
      canonicalize (namesakesValue [countValue, listedValue]) = .ok c' ∧
      Extended "" (namesakesValue [countValue]) (namesakesValue [countValue, listedValue]) ∧
      (∀ w ∈ (namesakesValue [countValue]).parts, w ≠ .float .nan) ∧
      (∀ members ∈ objects (namesakesValue [countValue]), lookup "aliases" members = none) ∧
      c.form.definedNames.Nodup ∧ c'.form.definedNames.Nodup ∧
      isCompatible c'.value [c.value] .backward = .error .noAttribute := by
  have ok : canonicalize (namesakesValue [countValue]) =
      .ok ⟨namesakes [countForm], (namesakesValue [countValue]).encode Json.spaced⟩ :=
    Compatibility.canonicalize_eq
      (submitted_value (Json.readable_of_exact (by decide)) rfl rfl) rfl rfl
  have ok' : canonicalize (namesakesValue [countValue, listedValue]) =
      .ok ⟨namesakes [countForm, listedForm],
        (namesakesValue [countValue, listedValue]).encode Json.spaced⟩ :=
    Compatibility.canonicalize_eq
      (submitted_value (Json.readable_of_exact (by decide)) rfl rfl) rfl normalize_listed
  have extended : Extended "" (namesakesValue [countValue])
      (namesakesValue [countValue, listedValue]) := by
    refine .inside (.branch [] [boxValue "b.R" "n" (boxValue "U" "x" (.str "int"))] _ _)
      (.here ⟨⟨false, rfl⟩, ?_, [countValue], [], rfl, rfl⟩ rfl rfl)
    exact .of_keys (by decide) (by decide) (by decide)
  exact ⟨_, _, ok, ok', extended, by decide, by decide, by decide, by decide, rfl⟩

end AvroRegistry.Schema
