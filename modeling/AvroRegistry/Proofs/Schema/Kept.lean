import AvroRegistry.Proofs.Json.Decoded
import AvroRegistry.Proofs.Schema.Members
import AvroRegistry.Proofs.Schema.Traced
import AvroRegistry.Proofs.Sorting.Permuted

/-!
# What a canonical form keeps

The values inside a form, such as defaults, symbols and attributes, were in the schema it was made
of, and the members of its own objects have keys of their own. So the value of a form is plain if
the schema was (`plain_toJson`), and what is read back from its text differs from it in nothing but
the order of members. The sizes of its fixed types, which a check compares, were there too
(`sizesAmong_parts`).
-/

namespace AvroRegistry

namespace Json

theorem plain_str (s : String) : Everywhere Plain (str s) := (everywhere_of_isKey rfl).2 trivial

theorem plain_elements {v : Json} (plain : Everywhere Plain v) {items : List Json}
    (listed : v.elements = .ok items) : ∀ w ∈ items, Everywhere Plain w := by
  have texts : ∀ {α : Type} (f : α → String) (xs : List α),
      ∀ w ∈ xs.map (fun x => str (f x)), Everywhere Plain w := by
    intro α f xs w mem
    obtain ⟨x, -, rfl⟩ := List.mem_map.1 mem
    exact plain_str (f x)
  cases v with
  | arr items =>
    cases listed
    exact ((everywhere_arr items).1 plain).2
  | str s =>
    cases listed
    exact texts String.singleton s.toList
  | obj members =>
    cases listed
    exact texts id (keys members)
  | _ => cases listed

theorem plain_sorted {values sorted : List Json} (plain : ∀ v ∈ values, Everywhere Plain v)
    (ok : Json.sorted values = .ok sorted) : ∀ v ∈ sorted, Everywhere Plain v :=
  fun v mem => plain v ((sorted_perm ok).mem_iff.1 mem)

end Json

namespace Schema

open Json (Everywhere Plain plain_str)

/-! ## Aliases -/

theorem plain_qualifyAlias {space : String} {v full : Json} (plain : v.Everywhere Plain)
    (ok : qualifyAlias space v = .ok full) : full.Everywhere Plain := by
  cases v with
  | str name =>
    cases ok
    exact plain_str _
  | arr items =>
    rw [qualifyAlias] at ok
    split at ok
    · cases ok
      exact plain
    · cases ok
      exact plain_str _
  | obj members =>
    rw [qualifyAlias] at ok
    split at ok
    · cases ok
      exact plain
    · cases ok
      exact plain_str _
  | _ => cases ok

theorem plain_qualifyAliases {space : String} {items : List Json} :
    ∀ {full : List Json}, (∀ v ∈ items, v.Everywhere Plain) →
      qualifyAliases space items = .ok full → ∀ v ∈ full, v.Everywhere Plain := by
  induction items with
  | nil =>
    intro full plain ok
    cases ok
    exact plain
  | cons first rest ih =>
    intro full plain ok
    obtain ⟨here, later⟩ := List.forall_mem_cons.1 plain
    rw [qualifyAliases] at ok
    split at ok
    · cases ok
    next made =>
      split at ok
      · cases ok
      next others =>
        cases ok
        exact List.forall_mem_cons.2 ⟨plain_qualifyAlias here made, ih later others⟩

theorem plain_typeAliases {space : String} {members : List (String × Json)} {aliases : List Json}
    (plain : (Json.obj members).Everywhere Plain) (ok : typeAliases space members = .ok aliases) :
    ∀ v ∈ aliases, v.Everywhere Plain := by
  unfold typeAliases at ok
  split at ok
  · cases ok
    simp
  next found =>
    split at ok
    · split at ok
      · cases ok
      next listed =>
        split at ok
        · cases ok
        next full =>
          exact Json.plain_sorted
            (plain_qualifyAliases (Json.plain_elements (plain.lookup found) listed) full) ok
    · cases ok
      simp

theorem plain_fieldAliases {members : List (String × Json)} {aliases : List Json}
    (plain : (Json.obj members).Everywhere Plain) (ok : fieldAliases members = .ok aliases) :
    ∀ v ∈ aliases, v.Everywhere Plain := by
  unfold fieldAliases at ok
  split at ok
  · cases ok
    simp
  next found =>
    split at ok
    · split at ok
      · cases ok
      next listed => exact Json.plain_sorted (Json.plain_elements (plain.lookup found) listed) ok
    · cases ok
      simp

/-! ## Members -/

theorem plain_optional {key : String} {v : Option Json}
    (plain : ∀ w, v = some w → w.Everywhere Plain) :
    ∀ m ∈ optional key v, m.2.Everywhere Plain := by
  cases v with
  | none => simp [optional]
  | some w => exact List.forall_mem_singleton.2 (plain w rfl)

theorem plain_arr {items : List Json} (plain : ∀ v ∈ items, v.Everywhere Plain) :
    (Json.arr items).Everywhere Plain := (Json.everywhere_arr items).2 ⟨trivial, plain⟩

theorem plain_aliasMember {aliases : List Json} (plain : ∀ v ∈ aliases, v.Everywhere Plain) :
    ∀ m ∈ aliasMember aliases, m.2.Everywhere Plain := by
  cases aliases with
  | nil => simp [aliasMember]
  | cons first rest => exact List.forall_mem_singleton.2 (plain_arr plain)

theorem keys_optional (key : String) (v : Option Json) :
    Json.keys (optional key v) = if v.isSome then [key] else [] := by
  cases v <;> rfl

theorem keys_aliasMember (aliases : List Json) :
    Json.keys (aliasMember aliases) = if aliases ≠ [] then ["aliases"] else [] := by
  cases aliases <;> rfl

theorem keys_append (xs ys : List (String × Json)) :
    Json.keys (xs ++ ys) = Json.keys xs ++ Json.keys ys := List.map_append

theorem keys_recordMembers (isError : Bool) (full : String) (aliases : List Json)
    (fields : List (FieldHead × Form)) :
    (Json.keys (recordMembers isError full aliases fields)).Nodup := by
  unfold recordMembers
  rw [keys_append, keys_append, keys_aliasMember]
  split <;> simp [Json.keys]

theorem keys_enumMembers (full : String) (aliases symbols : List Json) (default : Option Json) :
    (Json.keys (enumMembers full aliases symbols default)).Nodup := by
  unfold enumMembers
  rw [keys_append, keys_append, keys_append, keys_aliasMember, keys_optional]
  split <;> split <;> simp [Json.keys]

theorem keys_fieldMembers (head : FieldHead) (type : Json) :
    (Json.keys (fieldMembers head type)).Nodup := by
  unfold fieldMembers
  rw [keys_append, keys_append, keys_append, keys_aliasMember, keys_optional, keys_optional]
  split <;> split <;> split <;> simp [Json.keys]

theorem fixedAttributes_sublist (members : List (String × Json)) :
    (Json.keys (fixedAttributes members)).Sublist Form.fixedKeys := by
  have each : ∀ names : List String, (Json.keys (names.filterMap fun key =>
      (Json.lookup key members).map fun v => (key, v))).Sublist names := by
    intro names
    induction names with
    | nil => exact .slnil
    | cons name rest ih =>
      cases found : Json.lookup name members with
      | none =>
        rw [List.filterMap_cons_none (by rw [found]; rfl)]
        exact ih.cons name
      | some v =>
        rw [List.filterMap_cons_some (b := (name, v)) (by rw [found]; rfl)]
        exact ih.cons_cons name
  exact each _

theorem keys_fixedMembers (full : String) (aliases : List Json) (size : Json)
    (members : List (String × Json)) :
    (Json.keys (fixedMembers full aliases size (fixedAttributes members))).Nodup := by
  unfold fixedMembers
  rw [keys_append, keys_append, keys_append, keys_aliasMember, List.nodup_append]
  have kept := fixedAttributes_sublist members
  refine ⟨?_, kept.nodup (by decide), ?_⟩
  · split <;> simp [Json.keys]
  · rintro a front b back rfl
    have other := kept.subset back
    revert other
    split at front
    all_goals
      simp [Json.keys] at front
      rcases front with rfl | rfl | rfl | rfl
      all_goals decide

theorem fixedAttributes_mem {members : List (String × Json)} {m : String × Json}
    (mem : m ∈ fixedAttributes members) : Json.lookup m.1 members = some m.2 := by
  obtain ⟨key, -, made⟩ := List.mem_filterMap.1 mem
  obtain ⟨v, found, rfl⟩ := Option.map_eq_some_iff.1 made
  exact found

/-! ## Forms -/

theorem keys_annotated (name : String) {members : List (String × Json)}
    (distinct : (Json.keys members).Nodup) :
    (Json.keys (("type", .str name) :: attributes members)).Nodup := by
  refine List.nodup_cons.2 ⟨?_, (List.filter_sublist.map _).nodup distinct⟩
  intro mem
  obtain ⟨m, inside, typed⟩ := List.mem_map.1 mem
  have other := (List.mem_filter.1 inside).2
  simp [typed] at other

theorem plain_primitiveForm {name : String} {members : List (String × Json)}
    (plain : (Json.obj members).Everywhere Plain) :
    (primitiveForm name members).toJson.Everywhere Plain := by
  obtain ⟨distinct, each⟩ := (Json.everywhere_obj members).1 plain
  unfold primitiveForm
  split
  · exact plain_str name
  · refine (Json.everywhere_obj _).2 ⟨keys_annotated name distinct, ?_⟩
    refine List.forall_mem_cons.2 ⟨plain_str name, fun m mem => each m ?_⟩
    exact (List.mem_filter.1 mem).1

theorem plain_of_resolve {name space : String} {D D' : List String} {form : Form}
    (ok : resolve name space D = .ok (form, D')) : form.toJson.Everywhere Plain := by
  obtain ⟨n, rfl, -⟩ := resolve_eq_ok ok
  exact plain_str n

theorem plain_fieldOrder {members : List (String × Json)}
    (plain : (Json.obj members).Everywhere Plain) :
    ∀ v, fieldOrder members = some v → v.Everywhere Plain := by
  intro v found
  unfold fieldOrder at found
  split at found
  · next order here =>
    split at found
    · cases found
    · cases found
      exact plain.lookup here
  · cases found

/-- What is made of a plain value is plain, as a property of the walk of normalizing. -/
abbrev KeepsPlain (v : Json) (form : Form) : Prop :=
  v.Everywhere Plain → form.toJson.Everywhere Plain

theorem plain_branches {branches : List Json} {forms : List Form} {D D' : List String}
    (along : Along (fun v _ form _ => KeepsPlain v form) branches D forms D')
    (plain : ∀ v ∈ branches, v.Everywhere Plain) :
    ∀ form ∈ forms, form.toJson.Everywhere Plain := by
  induction along with
  | nil => simp
  | cons first _ ih =>
    obtain ⟨here, later⟩ := List.forall_mem_cons.1 plain
    exact List.forall_mem_cons.2 ⟨first here, ih later⟩

theorem plain_field {item : Json} {field : FieldHead × Form} {D D' : List String}
    (made : FieldMade (fun v _ form _ => KeepsPlain v form) item D field D')
    (plain : item.Everywhere Plain) : (field.1.toJson field.2.toJson).Everywhere Plain := by
  obtain ⟨members, name, v, aliases, rfl, named, -, typed, keeps, sorted, head⟩ := made.parts
  refine (Json.everywhere_obj _).2 ⟨keys_fieldMembers field.1 field.2.toJson, ?_⟩
  rw [head]
  simp only [List.forall_mem_append, List.forall_mem_cons]
  exact ⟨⟨⟨⟨plain.lookup named, keeps (plain.lookup typed), by simp⟩,
    plain_optional fun w found => plain.lookup found⟩,
    plain_aliasMember (plain_fieldAliases plain sorted)⟩,
    plain_optional (plain_fieldOrder plain)⟩

theorem plain_fields {items : List Json} {fields : List (FieldHead × Form)} {D D' : List String}
    (along : Along (FieldMade fun v _ form _ => KeepsPlain v form) items D fields D')
    (plain : ∀ v ∈ items, v.Everywhere Plain) :
    ∀ f ∈ fields, (f.1.toJson f.2.toJson).Everywhere Plain := by
  induction along with
  | nil => simp
  | cons first _ ih =>
    obtain ⟨here, later⟩ := List.forall_mem_cons.1 plain
    exact List.forall_mem_cons.2 ⟨plain_field first here, ih later⟩

/-- The value of a form that is made of a plain value is plain. -/
theorem plain_toJson {space : String} {v : Json} {D D' : List String} {form : Form}
    (ok : normalizeType space v D = .ok (form, D')) (plain : v.Everywhere Plain) :
    form.toJson.Everywhere Plain := by
  refine normalizeType_traced (motive := fun _ v _ form _ => KeepsPlain v form) ?word ?union
    ?container ?record ?enumeration ?fixed ?primitive ?reference v ok plain
  case word => exact fun _ _ _ _ _ ok _ => plain_of_resolve ok
  case reference => exact fun _ _ _ _ _ _ _ _ _ ok _ => plain_of_resolve ok
  case primitive => exact fun _ _ _ _ _ _ => plain_primitiveForm
  case union =>
    intro space branches D forms D' _ along plain
    rw [toJson_union]
    refine plain_arr fun w mem => ?_
    obtain ⟨form, inside, rfl⟩ := List.mem_map.1 mem
    exact plain_branches along ((Json.everywhere_arr branches).1 plain).2 form inside
  case container =>
    intro space c members v D part D' _ found keeps plain
    rw [toJson_container]
    refine (Json.everywhere_obj _).2 ⟨keys_partMembers c part.toJson, ?_⟩
    simp only [partMembers, List.forall_mem_cons]
    exact ⟨plain_str _, keeps (plain.lookup found), by simp⟩
  case record =>
    intro space isError members full aliases items D fields D' _ introduced found _ along plain
    have inside := plain_fields along ((Json.everywhere_arr items).1 (plain.lookup found)).2
    rw [toJson_record]
    refine (Json.everywhere_obj _).2 ⟨keys_recordMembers isError full aliases fields, ?_⟩
    unfold recordMembers
    simp only [List.forall_mem_append, List.forall_mem_cons]
    refine ⟨⟨⟨plain_str _, plain_str _, by simp⟩,
      plain_aliasMember (plain_typeAliases plain introduced.aliased)⟩, plain_arr ?_, by simp⟩
    intro w mem
    obtain ⟨f, field, rfl⟩ := List.mem_map.1 mem
    exact inside f field
  case enumeration =>
    intro space members full aliases symbols items D _ introduced found listed _ plain
    refine (Json.everywhere_obj _).2 ⟨keys_enumMembers full aliases items _, ?_⟩
    simp only [List.forall_mem_append, List.forall_mem_cons]
    exact ⟨⟨⟨⟨plain_str _, plain_str _, by simp⟩,
      plain_aliasMember (plain_typeAliases plain introduced.aliased)⟩,
      plain_arr (Json.plain_elements (plain.lookup found) listed), by simp⟩,
      plain_optional fun w found => plain.lookup found⟩
  case fixed =>
    intro space members full aliases size D _ introduced found plain
    refine (Json.everywhere_obj _).2 ⟨keys_fixedMembers full aliases size members, ?_⟩
    simp only [List.forall_mem_append, List.forall_mem_cons]
    exact ⟨⟨⟨⟨plain_str _, plain_str _, by simp⟩,
      plain_aliasMember (plain_typeAliases plain introduced.aliased)⟩, plain.lookup found, by simp⟩,
      fun m mem => plain.lookup (fixedAttributes_mem mem)⟩

/-! ## Sizes -/

/-- The sizes of the fixed types of a form are among given values. -/
def SizesAmong (values : List Json) (form : Form) : Prop :=
  ∀ full aliases size attributes, .fixed full aliases size attributes ∈ form.nodes → size ∈ values

section

variable {values wider : List Json} {form : Form}

theorem SizesAmong.mono (sub : values ⊆ wider) (among : SizesAmong values form) :
    SizesAmong wider form :=
  fun full aliases size attributes mem => sub (among full aliases size attributes mem)

/-- A type that has no size has the sizes of its parts. -/
theorem SizesAmong.of_parts (parts : List Form)
    (nodes : form.nodes = form :: parts.flatMap Form.nodes)
    (sizeless : ∀ full aliases size attributes, form ≠ .fixed full aliases size attributes)
    (each : ∀ part ∈ parts, SizesAmong values part) : SizesAmong values form := by
  intro full aliases size attributes mem
  rw [nodes] at mem
  rcases List.mem_cons.1 mem with same | inside
  · exact absurd same.symm (sizeless full aliases size attributes)
  · obtain ⟨part, listed, mem⟩ := List.mem_flatMap.1 inside
    exact each part listed full aliases size attributes mem

theorem sizesAmong_resolved {name space : String} {D D' : List String}
    (ok : resolve name space D = .ok (form, D')) : SizesAmong values form := by
  obtain ⟨n, rfl, -, -⟩ := resolve_eq_ok ok
  exact .of_parts [] rfl nofun nofun

end

theorem sizesAmong_branches {branches : List Json} {forms : List Form} {D D' : List String}
    (along : Along (fun v _ form _ => SizesAmong v.parts form) branches D forms D')
    {values : List Json} (within : ∀ v ∈ branches, v.parts ⊆ values) :
    ∀ form ∈ forms, SizesAmong values form := by
  induction along with
  | nil => simp
  | cons first _ ih =>
    obtain ⟨here, later⟩ := List.forall_mem_cons.1 within
    exact List.forall_mem_cons.2 ⟨first.mono here, ih later⟩

theorem sizesAmong_fields {items : List Json} {fields : List (FieldHead × Form)}
    {D D' : List String}
    (along : Along (FieldMade fun v _ form _ => SizesAmong v.parts form) items D fields D')
    {values : List Json} (within : ∀ v ∈ items, v.parts ⊆ values) :
    ∀ f ∈ fields, SizesAmong values f.2 := by
  induction along with
  | nil => simp
  | cons first _ ih =>
    obtain ⟨here, later⟩ := List.forall_mem_cons.1 within
    obtain ⟨members, name, v, aliases, rfl, -, -, typed, among, -, -⟩ := first.parts
    refine List.forall_mem_cons.2 ⟨among.mono ?_, ih later⟩
    exact List.Subset.trans (Json.parts_lookup typed) here

/-- The sizes in a form were in the schema it was made of. -/
theorem sizesAmong_parts {space : String} {v : Json} {D D' : List String} {form : Form}
    (ok : normalizeType space v D = .ok (form, D')) : SizesAmong v.parts form := by
  refine normalizeType_traced (motive := fun _ v _ form _ => SizesAmong v.parts form) ?word ?union
    ?container ?record ?enumeration ?fixed ?primitive ?reference v ok
  case word => exact fun _ _ _ _ _ ok => sizesAmong_resolved ok
  case reference => exact fun _ _ _ _ _ _ _ _ _ ok => sizesAmong_resolved ok
  case primitive =>
    intro space members name D _ _
    unfold primitiveForm
    split
    · exact .of_parts [] rfl (by simp) (by simp)
    · exact .of_parts [] rfl (by simp) (by simp)
  case union =>
    intro space branches D forms D' _ along
    refine .of_parts forms (Form.nodes_union forms) (by simp) ?_
    exact sizesAmong_branches along fun v => Json.parts_item
  case container =>
    intro space c members v D part D' _ found among
    refine .of_parts [part] ?_ ?_ (List.forall_mem_singleton.2 ?_)
    · rw [nodes_container, List.flatMap_singleton]
    · cases c
      all_goals exact fun _ _ _ _ => nofun
    · exact among.mono (Json.parts_lookup found)
  case record =>
    intro space isError members full aliases items D fields D' _ _ found _ along
    refine .of_parts (fields.map (·.2)) ?_ (by simp) (List.forall_mem_map.2 ?_)
    · rw [Form.nodes_record, List.flatMap_map]
    · exact sizesAmong_fields along fun v mem =>
        List.Subset.trans (Json.parts_item mem) (Json.parts_lookup found)
  case enumeration =>
    intro space members full aliases symbols items D _ _ _ _ _
    exact .of_parts [] rfl (by simp) (by simp)
  case fixed =>
    intro space members full aliases size D _ _ found full' aliases' size' attributes' mem
    cases List.mem_singleton.1 mem
    exact Json.parts_lookup found (Json.self_mem_parts size)

end Schema

end AvroRegistry
