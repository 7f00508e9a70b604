import AvroRegistry.Proofs.Schema.Kept
import AvroRegistry.Proofs.Schema.Outline
import AvroRegistry.Schema.Canonical

/-!
# Normalizing is looking up the names of the outline

`relink` goes through an outline with the names defined so far and settles what each name stands
for: a defined name for itself, another one for the same name outside of all namespaces. Where
normalizing a type succeeds, that gives its form, up to the order of attributes, and the same names
(`relink_outline`). So the outline of a schema and the names before it determine its canonical text.
-/

namespace AvroRegistry.Schema

open Json (Everywhere Plain lookup)

/-! ## Looking up a name -/

/-- What a full name stands for among defined names. -/
def link (defined : List String) (name : String) : String :=
  if isPrimitive name || defined.contains name then name else unqualified name

/-- The words of the language have no dots. -/
theorem plain_words : ∀ word ∈ primitiveNames ++ constructors, isDotted word = false := by
  decide

theorem isPrimitive_dotted {name : String} (dotted : isDotted name = true) :
    isPrimitive name = false := by
  by_contra primitive
  have mem : name ∈ primitiveNames := by simpa [isPrimitive] using primitive
  rw [plain_words name (List.mem_append_left _ mem)] at dotted
  cases dotted

theorem isPrimitive_qualify {name : String} (other : isPrimitive name = false) (space : String) :
    isPrimitive (qualify name space) = false := by
  obtain same | ⟨-, longer⟩ := qualify_cases name space
  · rw [same, other]
  · rw [longer, isPrimitive_dotted (dotted_append space name)]

/-- The form of a word is what its meaning stands for. -/
theorem resolve_linked {name space : String} {form : Form} {defined defined' : List String}
    (ok : resolve name space defined = .ok (form, defined')) :
    form = .name (link defined (meaning name space)) ∧ defined' = defined := by
  unfold resolve at ok
  unfold meaning
  by_cases primitive : isPrimitive name = true
  · rw [if_pos primitive] at ok ⊢
    cases ok
    simp [link, primitive]
  · rw [if_neg primitive] at ok ⊢
    have other := isPrimitive_qualify (by simpa using primitive) space
    change (if defined.contains (qualify name space) then pure (.name (qualify name space))
      else if defined.contains name then pure (.name name)
      else reject (.unresolved name) : Normalizing Form) defined = _ at ok
    unfold link
    rw [other, Bool.false_or]
    split at ok
    · next found =>
      cases ok
      rw [if_pos found]
      exact ⟨rfl, rfl⟩
    · next unknown =>
      rw [if_neg unknown]
      split at ok
      · next found =>
        cases ok
        obtain same | ⟨plain, longer⟩ := qualify_cases name space
        · rw [same] at unknown
          exact absurd found unknown
        · rw [longer, unqualified_append plain]
          exact ⟨rfl, rfl⟩
      · cases ok

/-! ## Looking up all names -/

mutual

/-- An outline with its names looked up among those defined so far, and the names defined after
it. -/
def relink (defined : List String) : Form → Form × List String
  | .name n => (.name (link defined n), defined)
  | .annotated p attributes => (.annotated p attributes, defined)
  | .union branches => ((relinkBranches defined branches).map .union id)
  | .array items => ((relink defined items).map .array id)
  | .map values => ((relink defined values).map .map id)
  | .record isError full aliases fields =>
    ((relinkFields (full :: defined) fields).map (.record isError full aliases) id)
  | .enumeration full aliases symbols default =>
    (.enumeration full aliases symbols default, full :: defined)
  | .fixed full aliases size attributes => (.fixed full aliases size attributes, full :: defined)

/-- The branches of a union with their names looked up from left to right. -/
def relinkBranches (defined : List String) : List Form → List Form × List String
  | [] => ([], defined)
  | branch :: rest =>
    let first := relink defined branch
    (relinkBranches first.2 rest).map (first.1 :: ·) id

/-- The fields of a record with their names looked up from left to right. -/
def relinkFields (defined : List String) :
    List (FieldHead × Form) → List (FieldHead × Form) × List String
  | [] => ([], defined)
  | (head, type) :: rest =>
    let first := relink defined type
    (relinkFields first.2 rest).map ((head, first.1) :: ·) id

end

/-- The value of a form with its members in the order of the canonical text. -/
def Form.ordered (form : Form) : Json := Json.arranged Json.compact form.toJson

/-- The value of a field, likewise. -/
def orderedField (field : FieldHead × Form) : Json :=
  Json.arranged Json.compact (field.1.toJson field.2.toJson)

/-- The text of a form is that of its value in this order. -/
theorem canonicalText_ordered (form : Form) :
    canonicalText form.ordered = canonicalText form.toJson :=
  Json.encode_arranged Json.compact form.toJson

/-! ## The form of an outline -/

/-- What is made of a value is its outline with the names looked up. -/
def Relinks (space : String) (v : Json) (before : List String) (form : Form)
    (after : List String) : Prop :=
  v.Everywhere Plain →
    ∃ linked, relink before (outline space v) = (linked, after) ∧ linked.ordered = form.ordered

theorem Introduced.fullName_eq {space full : String} {members : List (String × Json)}
    {aliases : List Json} (introduced : Introduced space members full aliases) :
    fullName space members = full := by
  obtain ⟨name, named, -, rfl⟩ := introduced.named
  unfold fullName
  rw [named]

theorem Introduced.fullAliases_eq {space full : String} {members : List (String × Json)}
    {aliases : List Json} (introduced : Introduced space members full aliases) :
    fullAliases space members = aliases := by
  unfold fullAliases
  rw [introduced.fullName_eq, introduced.aliased]
  rfl

theorem ordered_container (c : Container) {part part' : Form}
    (same : part.ordered = part'.ordered) : (c.form part).ordered = (c.form part').ordered := by
  cases c
  all_goals
    apply Json.arranged_obj_congr
    simpa [Json.mapMembers, Form.ordered] using same

theorem ordered_union {branches branches' : List Form}
    (same : branches.map Form.ordered = branches'.map Form.ordered) :
    (Form.union branches).ordered = (Form.union branches').ordered := by
  unfold Form.ordered
  rw [toJson_union, toJson_union, Json.arranged_arr, Json.arranged_arr, List.map_map, List.map_map]
  exact congrArg Json.arr same

theorem orderedField_congr (head : FieldHead) {type type' : Form}
    (same : type.ordered = type'.ordered) :
    orderedField (head, type) = orderedField (head, type') := by
  apply Json.arranged_obj_congr
  simp only [Json.mapMembers, List.map_append, List.map_cons]
  rw [show Json.arranged Json.compact type.toJson = _ from same]
  rfl

theorem ordered_record (isError : Bool) (full : String) (aliases : List Json)
    {fields fields' : List (FieldHead × Form)}
    (same : fields.map orderedField = fields'.map orderedField) :
    (Form.record isError full aliases fields).ordered =
      (Form.record isError full aliases fields').ordered := by
  unfold Form.ordered
  rw [toJson_record, toJson_record]
  apply Json.arranged_obj_congr
  simp only [recordMembers, Json.mapMembers, List.map_append, List.map_cons, Json.arranged_arr,
    List.map_map]
  exact congrArg (fun values => _ ++ [("fields", Json.arr values)]) same

/-- The order of the attributes of a primitive type does not show. -/
theorem ordered_primitive (name : String) {members : List (String × Json)}
    (distinct : (Json.keys members).Nodup) :
    (outlinePrimitive name members).ordered = (primitiveForm name members).ordered := by
  have order := Json.arrange_perm Json.compact (attributes members)
  have keys : (Json.keys (("type", .str name) :: attributes members)).Nodup :=
    keys_annotated name distinct
  unfold outlinePrimitive primitiveForm
  generalize attributes members = kept at order keys
  cases kept with
  | nil =>
    rw [order.eq_nil]
  | cons m rest =>
    have filled : Json.arrange Json.compact (m :: rest) ≠ [] := fun empty => by
      simp [empty] at order
    generalize Json.arrange Json.compact (m :: rest) = sorted at order filled
    cases sorted with
    | nil => exact absurd rfl filled
    | cons first others =>
      exact (Json.arranged_obj_perm Json.compact rfl (order.symm.cons _) keys).symm

theorem isConstructor_primitive {name : String} (primitive : isPrimitive name = true) :
    isConstructor (.str name) = false := by
  have words : ∀ p ∈ primitiveNames, isConstructor (.str p) = false := by decide
  exact words name (by simpa [isPrimitive] using primitive)

theorem relink_primitive {name : String} (primitive : isPrimitive name = true)
    (defined : List String) (members : List (String × Json)) :
    relink defined (outlinePrimitive name members) = (outlinePrimitive name members, defined) := by
  unfold outlinePrimitive
  split
  · rw [relink, link, primitive, Bool.true_or, if_pos rfl]
  · rw [relink]

theorem relink_container (c : Container) (defined : List String) (part : Form) :
    relink defined (c.form part) = (relink defined part).map c.form id := by
  cases c <;> rw [Container.form, relink]

theorem relinks_branches {space : String} {branches : List Json} {forms : List Form}
    {before after : List String}
    (along : Along (Relinks space) branches before forms after)
    (plain : ∀ v ∈ branches, v.Everywhere Plain) :
    ∃ linked, relinkBranches before (branches.map (outline space)) = (linked, after) ∧
      linked.map Form.ordered = forms.map Form.ordered := by
  induction along with
  | nil state => exact ⟨[], rfl, rfl⟩
  | cons first _ ih =>
    obtain ⟨here, later⟩ := List.forall_mem_cons.1 plain
    obtain ⟨form, made, same⟩ := first here
    obtain ⟨others, made', same'⟩ := ih later
    refine ⟨form :: others, ?_, by rw [List.map_cons, List.map_cons, same, same']⟩
    rw [List.map_cons, relinkBranches, made]
    dsimp only
    rw [made']
    rfl

theorem relinks_fields {space : String} {items : List Json} {fields : List (FieldHead × Form)}
    {before after : List String}
    (along : Along (FieldMade (Relinks space)) items before fields after)
    (plain : ∀ v ∈ items, v.Everywhere Plain) :
    ∃ linked, relinkFields before (outlineFields space items) = (linked, after) ∧
      linked.map orderedField = fields.map orderedField := by
  induction along with
  | nil state => exact ⟨[], by rw [outlineFields, relinkFields], rfl⟩
  | @cons item field _ _ _ _ _ first _ ih =>
    obtain ⟨here, later⟩ := List.forall_mem_cons.1 plain
    obtain ⟨members, name, v, aliases, rfl, named, -, typed, relinks, sorted, is⟩ := first.parts
    obtain ⟨form, made, same⟩ := relinks (here.lookup typed)
    obtain ⟨others, made', same'⟩ := ih later
    obtain ⟨head, type⟩ := field
    obtain rfl : head = outlineHead members := by
      unfold outlineHead
      rw [named, sorted]
      exact is
    refine ⟨(outlineHead members, form) :: others, ?_, ?_⟩
    · rw [outlineFields, relinkFields, outlineUnder_eq, typed]
      dsimp only [Option.map_some, Option.getD_some]
      rw [made]
      dsimp only
      rw [made']
      rfl
    · rw [List.map_cons, List.map_cons, orderedField_congr _ same, same']

/-- Where normalizing succeeds, its form is the outline with the names looked up. -/
theorem relink_outline {space : String} {v : Json} {form : Form} {before after : List String}
    (ok : normalizeType space v before = .ok (form, after)) :
    Relinks space v before form after := by
  refine normalizeType_traced (motive := Relinks) ?word ?union ?container ?record ?enumeration
    ?fixed ?primitive ?reference v ok
  case word =>
    intro space name D form D' ok _
    obtain ⟨rfl, rfl⟩ := resolve_linked ok
    exact ⟨_, by rw [outline_str, relink], rfl⟩
  case union =>
    intro space branches D forms D' _ along plain
    obtain ⟨linked, made, same⟩ :=
      relinks_branches along ((Json.everywhere_arr branches).1 plain).2
    exact ⟨.union linked, by rw [outline_arr, relink, made]; rfl, ordered_union same⟩
  case container =>
    intro space c members v D part D' typed found relinks plain
    obtain ⟨linked, made, same⟩ := relinks (plain.lookup found)
    refine ⟨c.form linked, ?_, ordered_container c same⟩
    rw [outline_container typed, found, Option.map_some, Option.getD_some, relink_container, made]
    rfl
  case record =>
    intro space isError members full aliases items D fields D' typed introduced found _ along plain
    obtain ⟨linked, made, same⟩ :=
      relinks_fields along ((Json.everywhere_arr items).1 (plain.lookup found)).2
    refine ⟨.record isError full aliases linked, ?_, ordered_record isError full aliases same⟩
    rw [outline_record typed, introduced.fullName_eq, introduced.fullAliases_eq, found,
      outlineListed, relink, made]
    rfl
  case enumeration =>
    intro space members full aliases symbols items D typed introduced found listed _ _
    refine ⟨_, ?_, rfl⟩
    rw [outline_enumeration typed, outlineEnum, introduced.fullName_eq, introduced.fullAliases_eq,
      found, Option.getD_some, listed, relink]
    rfl
  case fixed =>
    intro space members full aliases size D typed introduced found _
    refine ⟨_, ?_, rfl⟩
    rw [outline_fixed typed, outlineFixed, introduced.fullName_eq, introduced.fullAliases_eq, found,
      relink]
    rfl
  case primitive =>
    intro space members name D typed primitive plain
    refine ⟨_, ?_, ordered_primitive name plain.self⟩
    rw [outline_other typed (isConstructor_primitive primitive), outlineOther, if_pos primitive,
      relink_primitive primitive]
  case reference =>
    intro space members name D form D' typed plain other ok _
    obtain ⟨rfl, rfl⟩ := resolve_linked ok
    refine ⟨_, ?_, rfl⟩
    rw [outline_other typed plain, outlineOther, other]
    rfl

end AvroRegistry.Schema
