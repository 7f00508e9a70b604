import AvroRegistry.Proofs.Json.Ascending
import AvroRegistry.Proofs.Schema.ReadBack

/-!
# Normalizing a canonical form again

The value of a canonical form, read back from its text, is normalized to the same value again
(`normalizeType_again`), with the same names defined after it, as long as the full names in it stand
(`Form.NamesStand`): a full name without a dot, read in a namespace, would be put behind that.
Everything else in a form has been settled by the first time: references are full names or stand as
they are, aliases are qualified and in order, symbols are listed, an order that is not kept is left
out.
-/

namespace AvroRegistry.Schema

open Json (Everywhere Plain lookup arranged compact)

/-! ## Aliases -/

/-- A full alias is its own full alias. -/
theorem qualifyAlias_again {space : String} {v full : Json}
    (ok : qualifyAlias space v = .ok full) :
    qualifyAlias space (arranged compact full) = .ok (arranged compact full) := by
  have shown : ∀ s, qualifyAlias space (arranged compact (.str (space ++ "." ++ s))) =
      .ok (arranged compact (.str (space ++ "." ++ s))) := fun s =>
    congrArg (fun name => Except.ok (Json.str name)) (qualify_dotted (dotted_append space s) space)
  cases v with
  | str name =>
    cases ok
    exact congrArg (fun name => Except.ok (Json.str name)) (qualify_qualify name space)
  | arr items =>
    rw [qualifyAlias] at ok
    split at ok
    · next kept =>
      cases ok
      rw [Json.arranged_arr, qualifyAlias, Json.isIn_arranged, if_pos kept]
    · cases ok
      exact shown _
  | obj members =>
    rw [qualifyAlias] at ok
    split at ok
    · next kept =>
      cases ok
      have same : (Json.keys (readBack members)).contains "." =
          (Json.keys members).contains "." := by
        rw [readBack, Json.keys_mapMembers]
        exact ((Json.arrange_perm compact members).map _).contains_eq
      rw [arranged_readBack, qualifyAlias, same, if_pos kept]
    · cases ok
      exact shown _
  | _ => cases ok

theorem qualifyAliases_made {space : String} {items : List Json} :
    ∀ {full : List Json}, qualifyAliases space items = .ok full →
      ∀ w ∈ full, ∃ v, qualifyAlias space v = .ok w := by
  induction items with
  | nil =>
    intro full ok
    cases ok
    simp
  | cons first rest ih =>
    intro full ok
    rw [qualifyAliases] at ok
    split at ok
    · cases ok
    next made =>
      split at ok
      · cases ok
      next others =>
        cases ok
        exact List.forall_mem_cons.2 ⟨⟨first, made⟩, ih others⟩

theorem qualifyAliases_settled {space : String} {items : List Json}
    (each : ∀ v ∈ items, qualifyAlias space v = .ok v) :
    qualifyAliases space items = .ok items := by
  induction items with
  | nil => rfl
  | cons first rest ih =>
    obtain ⟨here, later⟩ := List.forall_mem_cons.1 each
    rw [qualifyAliases, here]
    dsimp only
    rw [ih later]

/-- Aliases that there are have been qualified and sorted. -/
theorem typeAliases_made {space : String} {members : List (String × Json)} {aliases : List Json}
    (plain : (Json.obj members).Everywhere Plain) (ok : typeAliases space members = .ok aliases)
    (some : aliases ≠ []) :
    ∃ full, (∀ w ∈ full, w.Everywhere Plain ∧ ∃ v, qualifyAlias space v = .ok w) ∧
      Json.sorted full = .ok aliases := by
  unfold typeAliases at ok
  split at ok
  · cases ok
    exact absurd rfl some
  next given =>
    split at ok
    · split at ok
      · cases ok
      next items listed =>
        split at ok
        · cases ok
        next full made =>
          have plain := plain_qualifyAliases (Json.plain_elements (plain.lookup given) listed) made
          exact ⟨full, fun w mem => ⟨plain w mem, qualifyAliases_made made w mem⟩, ok⟩
    · cases ok
      exact absurd rfl some

theorem fieldAliases_made {members : List (String × Json)} {aliases : List Json}
    (plain : (Json.obj members).Everywhere Plain) (ok : fieldAliases members = .ok aliases)
    (some : aliases ≠ []) :
    ∃ items, (∀ v ∈ items, v.Everywhere Plain) ∧ Json.sorted items = .ok aliases := by
  unfold fieldAliases at ok
  split at ok
  · cases ok
    exact absurd rfl some
  next given =>
    split at ok
    · split at ok
      · cases ok
      next items listed =>
        exact ⟨items, Json.plain_elements (plain.lookup given) listed, ok⟩
    · cases ok
      exact absurd rfl some

theorem typeAliases_again {space : String} {members stored : List (String × Json)}
    {aliases : List Json} (plain : (Json.obj members).Everywhere Plain)
    (ok : typeAliases space members = .ok aliases)
    (found : lookup "aliases" stored = aliasesRead aliases) :
    typeAliases space stored = .ok (aliases.map (arranged compact)) := by
  unfold typeAliases
  rw [found]
  cases aliases with
  | nil => rfl
  | cons first rest =>
    obtain ⟨full, made, sorted⟩ := typeAliases_made plain ok (List.cons_ne_nil _ _)
    have settled : ∀ v ∈ (first :: rest).map (arranged compact), qualifyAlias space v = .ok v := by
      refine List.forall_mem_map.2 fun w mem => ?_
      obtain ⟨-, v, qualified⟩ := made w ((Json.sorted_perm sorted).mem_iff.1 mem)
      exact qualifyAlias_again qualified
    have speaks : (Json.arr ((first :: rest).map (arranged compact))).truthy = true := rfl
    dsimp only [aliasesRead, Json.elements]
    rw [if_pos speaks, qualifyAliases_settled settled]
    exact Json.sorted_arranged compact (fun w mem => (made w mem).1) sorted

theorem fieldAliases_again {members stored : List (String × Json)} {aliases : List Json}
    (plain : (Json.obj members).Everywhere Plain) (ok : fieldAliases members = .ok aliases)
    (found : lookup "aliases" stored = aliasesRead aliases) :
    fieldAliases stored = .ok (aliases.map (arranged compact)) := by
  unfold fieldAliases
  rw [found]
  cases aliases with
  | nil => rfl
  | cons first rest =>
    obtain ⟨items, plain, sorted⟩ := fieldAliases_made plain ok (List.cons_ne_nil _ _)
    exact Json.sorted_arranged compact plain sorted

/-! ## Names -/

mutual

/-- Whether each named type keeps its full name when the form is read in a namespace. -/
def Form.NamesStand (space : String) : Form → Prop
  | name _ => True
  | annotated _ _ => True
  | union branches => NamesStandInBranches space branches
  | array items => items.NamesStand space
  | map values => values.NamesStand space
  | record _ full _ fields => qualify full space = full ∧ NamesStandInFields (spaceOf full) fields
  | enumeration full _ _ _ => qualify full space = full
  | fixed full _ _ _ => qualify full space = full

/-- Whether each named type in the branches of a union does. -/
def Form.NamesStandInBranches (space : String) : List Form → Prop
  | [] => True
  | branch :: rest => branch.NamesStand space ∧ NamesStandInBranches space rest

/-- Whether each named type in the fields of a record does. -/
def Form.NamesStandInFields (space : String) : List (FieldHead × Form) → Prop
  | [] => True
  | (_, type) :: rest => type.NamesStand space ∧ NamesStandInFields space rest

end

theorem Container.namesStand_iff (c : Container) {space : String} {part : Form} :
    (c.form part).NamesStand space ↔ part.NamesStand space := by
  cases c
  all_goals exact Iff.rfl

theorem resolve_other {name : String} (other : isPrimitive name = false) (space : String)
    (defined : List String) :
    resolve name space defined =
      if defined.contains (qualify name space) then .ok (.name (qualify name space), defined)
      else if defined.contains name then .ok (.name name, defined)
      else .error (.diagnosis (.unresolved name)) := by
  unfold resolve
  rw [other, if_neg Bool.false_ne_true]
  show (if defined.contains (qualify name space) then _ else _ : Normalizing Form) defined = _
  split
  · rfl
  · split <;> rfl

/-- What stands for a word stands for itself. -/
theorem resolve_again {name space : String} {form : Form} {defined defined' : List String}
    (ok : resolve name space defined = .ok (form, defined')) :
    ∃ n, form = .name n ∧ resolve n space defined = .ok (form, defined') := by
  cases primitive : isPrimitive name with
  | true =>
    have read := ok
    unfold resolve at ok
    rw [if_pos primitive] at ok
    cases ok
    exact ⟨name, rfl, read⟩
  | false =>
    have read := ok
    rw [resolve_other primitive] at ok
    split at ok
    · next known =>
      cases ok
      refine ⟨_, rfl, ?_⟩
      rw [resolve_other (isPrimitive_qualify primitive space), qualify_qualify, if_pos known]
    · split at ok
      · cases ok
        exact ⟨name, rfl, read⟩
      · cases ok

/-! ## Named types -/

theorem qualify_ne_empty {name : String} (filled : name ≠ "") (space : String) :
    qualify name space ≠ "" := by
  obtain same | ⟨-, longer⟩ := qualify_cases name space
  · rwa [same]
  · rw [longer]
    intro empty
    have dotted := dotted_append space name
    rw [empty] at dotted
    cases dotted

/-- A full name that stands is introduced again, with the same aliases. -/
theorem introduce_again {space around full : String} {aliases : List Json}
    {members stored : List (String × Json)} (plain : (Json.obj members).Everywhere Plain)
    (introduced : Introduced around members full aliases) (stands : qualify full space = full)
    (read : Reintroduced full aliases stored) (type : Json) (defined : List String) :
    introduce space type stored defined =
      .ok ((full, aliases.map (arranged compact)), full :: defined) := by
  obtain ⟨name, -, filled, is⟩ := introduced.named
  have own : enclosing space stored = space := by
    unfold enclosing
    rw [read.nowhere]
    exact enclosing_text space
  rw [introduce_named read.named (is ▸ qualify_ne_empty filled _), own, stands,
    typeAliases_again plain introduced.aliased read.aliased]
  rfl

/-! ## Members once and again -/

theorem mapMembers_optional (f : Json → Json) (key : String) (v : Option Json) :
    Json.mapMembers f (optional key v) = optional key (v.map f) := by
  cases v <;> rfl

theorem mapMembers_aliasMember (aliases : List Json) :
    Json.mapMembers (arranged compact) (aliasMember aliases) =
      aliasMember (aliases.map (arranged compact)) := by
  cases aliases with
  | nil => rfl
  | cons first rest =>
    unfold aliasMember Json.mapMembers
    rw [List.map_singleton, Json.arranged_arr]
    rfl

theorem mapMembers_append (f : Json → Json) (xs ys : List (String × Json)) :
    Json.mapMembers f (xs ++ ys) = Json.mapMembers f xs ++ Json.mapMembers f ys := List.map_append

theorem map_arranged_twice (values : List Json) :
    (values.map (arranged compact)).map (arranged compact) = values.map (arranged compact) := by
  rw [List.map_map]
  exact List.map_congr_left fun v _ => Json.arranged_arranged compact v

theorem option_arranged_twice (v : Option Json) :
    (v.map (arranged compact)).map (arranged compact) = v.map (arranged compact) := by
  cases v with
  | none => rfl
  | some w => exact congrArg some (Json.arranged_arranged compact w)

/-! ## Fields -/

/-- The head of a field as it is read back. -/
def FieldHead.again (head : FieldHead) : FieldHead :=
  ⟨head.name, head.default.map (arranged compact), head.aliases.map (arranged compact),
    head.order.map (arranged compact)⟩

theorem orderedField_again (head : FieldHead) {type type' : Form}
    (same : type'.ordered = type.ordered) :
    orderedField (head.again, type') = orderedField (head, type) := by
  rw [orderedField_congr head.again same]
  apply Json.arranged_obj_congr
  show Json.mapMembers (arranged compact) (fieldMembers head.again type.toJson) =
    Json.mapMembers (arranged compact) (fieldMembers head type.toJson)
  unfold fieldMembers FieldHead.again
  simp only [mapMembers_append, mapMembers_optional, mapMembers_aliasMember, map_arranged_twice,
    option_arranged_twice]

theorem isStr_arranged (s : String) (v : Json) : (arranged compact v).isStr s = v.isStr s := by
  cases v <;> rfl

theorem fieldOrder_again {members stored : List (String × Json)}
    (read : lookup "order" stored = (fieldOrder members).map (arranged compact)) :
    fieldOrder stored = (fieldOrder members).map (arranged compact) := by
  unfold fieldOrder at read ⊢
  split at read
  · next order found =>
    split at read
    · rw [read]
      simp [*]
    · next other =>
      rw [read, Option.map_some]
      dsimp only
      rw [isStr_arranged, if_neg other, if_neg other, Option.map_some]
  · rw [read]
    rfl

/-- The head of a field is read back. -/
theorem headOf_again {head : FieldHead} {name : Json} {aliases : List Json}
    {members stored : List (String × Json)} {type : Json}
    (is : head = headOf name aliases members) (read : FieldRead head type stored) :
    headOf head.name (head.aliases.map (arranged compact)) stored = head.again := by
  subst is
  unfold headOf FieldHead.again
  rw [read.default, fieldOrder_again read.ordered]
  rfl

/-! ## Types, one after the other -/

/-- What is made of a type settles it: it is normalized to the same value again. -/
def Settles (space : String) (v : Json) (before : List String) (form : Form)
    (after : List String) : Prop :=
  v.Everywhere Plain → (∀ node ∈ form.nodes, node.Tidy) → form.NamesStand space →
    ∃ again, normalizeType space form.ordered before = .ok (again, after) ∧
      again.ordered = form.ordered

theorem settles_branches {space : String} {branches : List Json} {forms : List Form}
    {before after : List String} (along : Along (Settles space) branches before forms after)
    (plain : ∀ v ∈ branches, v.Everywhere Plain)
    (tidy : ∀ form ∈ forms, ∀ node ∈ form.nodes, node.Tidy)
    (stand : Form.NamesStandInBranches space forms) :
    ∃ again, normalizeBranches space (forms.map Form.ordered) before = .ok (again, after) ∧
      again.map Form.ordered = forms.map Form.ordered := by
  induction along with
  | nil state =>
    refine ⟨[], ?_, rfl⟩
    rw [List.map_nil, normalizeBranches]
    rfl
  | cons first _ ih =>
    obtain ⟨plainHere, plain⟩ := List.forall_mem_cons.1 plain
    obtain ⟨tidyHere, tidy⟩ := List.forall_mem_cons.1 tidy
    obtain ⟨again, made, same⟩ := first plainHere tidyHere stand.1
    obtain ⟨others, made', same'⟩ := ih plain tidy stand.2
    refine ⟨again :: others, ?_, by rw [List.map_cons, List.map_cons, same, same']⟩
    exact normalizeBranches_cons_eq_ok.2 ⟨again, _, others, made, made', rfl⟩

theorem settles_fields {space : String} (full : String) {items : List Json} (seen : List Json)
    {fields : List (FieldHead × Form)} {before after : List String}
    (along : Along (FieldMade (Settles space)) items before fields after)
    (plain : ∀ v ∈ items, v.Everywhere Plain)
    (tidy : ∀ f ∈ fields, ∀ node ∈ f.2.nodes, node.Tidy)
    (stand : Form.NamesStandInFields space fields) (differ : Form.NamesDiffer fields)
    (fresh : ∀ f ∈ fields, f.1.name.isIn seen = false) :
    ∃ again, normalizeFields full space seen (fields.map orderedField) before = .ok (again, after) ∧
      again.map orderedField = fields.map orderedField := by
  induction along generalizing seen with
  | nil state =>
    refine ⟨[], ?_, rfl⟩
    rw [List.map_nil, normalizeFields]
    rfl
  | @cons item field _ fields _ _ _ first _ ih =>
    obtain ⟨plainHere, plainRest⟩ := List.forall_mem_cons.1 plain
    obtain ⟨tidyHere, tidyRest⟩ := List.forall_mem_cons.1 tidy
    obtain ⟨freshHere, freshRest⟩ := List.forall_mem_cons.1 fresh
    obtain ⟨keyHere, keys⟩ := List.forall_mem_cons.1 differ.keys
    obtain ⟨apart, differRest⟩ := List.pairwise_cons.1 differ.differ
    obtain ⟨members, name, v, aliases, rfl, named, key, typed, settles, sorted, is⟩ := first.parts
    obtain ⟨type, made, same⟩ := settles (plainHere.lookup typed) tidyHere stand.1
    have freshLater : ∀ f ∈ fields, f.1.name.isIn (field.1.name :: seen) = false := by
      intro f mem
      rw [Json.isIn, List.any_cons, Bool.or_eq_false_iff]
      exact ⟨(Json.same_comm (keys f mem) keyHere).trans (apart f mem), freshRest f mem⟩
    obtain ⟨others, made', same'⟩ :=
      ih (field.1.name :: seen) plainRest tidyRest stand.2 ⟨keys, differRest⟩ freshLater
    have read := fieldRead field.1 field.2.toJson
    have sorted : fieldAliases members = .ok field.1.aliases := by
      rw [is]
      exact sorted
    refine ⟨(field.1.again, type) :: others, ?_, ?_⟩
    · rw [List.map_cons, orderedField_eq]
      refine normalizeFields_cons_eq_ok.2 ⟨field.1.name, _, type, _, _, others, ?_, keyHere,
        freshHere, read.typed, made,
        fieldAliases_again plainHere sorted read.aliased, made', ?_⟩
      · rw [read.named, Json.arranged_of_isKey compact keyHere]
      · rw [headOf_again is read]
    · rw [List.map_cons, List.map_cons, orderedField_again field.1 same, same']

/-! ## Records, enums and fixed types -/

theorem ordered_record_again (isError : Bool) (full : String) (aliases : List Json)
    {fields fields' : List (FieldHead × Form)}
    (same : fields'.map orderedField = fields.map orderedField) :
    (Form.record isError full (aliases.map (arranged compact)) fields').ordered =
      (Form.record isError full aliases fields).ordered := by
  rw [ordered_record isError full _ same]
  unfold Form.ordered
  rw [toJson_record, toJson_record]
  apply Json.arranged_obj_congr
  unfold recordMembers
  simp only [mapMembers_append, mapMembers_aliasMember, map_arranged_twice]

theorem ordered_enumeration_again (full : String) (aliases symbols : List Json)
    (default : Option Json) :
    (Form.enumeration full (aliases.map (arranged compact)) (symbols.map (arranged compact))
      (default.map (arranged compact))).ordered =
      (Form.enumeration full aliases symbols default).ordered := by
  show arranged compact (.obj (enumMembers full _ _ _)) =
    arranged compact (.obj (enumMembers full aliases symbols default))
  apply Json.arranged_obj_congr
  unfold enumMembers
  simp only [mapMembers_append, mapMembers_aliasMember, mapMembers_optional, map_arranged_twice,
    option_arranged_twice]
  simp [Json.mapMembers, Json.arranged_arr, Json.arranged_arranged]

theorem normalizeEnum_of_read {space full : String} {aliases given symbols : List Json}
    {default : Option Json} {stored : List (String × Json)} {defined : List String}
    (read : EnumRead full aliases symbols default stored)
    (keys : symbols.all Json.isKey = true) (distinct : Json.allDistinct symbols = true)
    (introduced : introduce space (.str "enum") stored defined =
      .ok ((full, given), full :: defined)) :
    normalizeEnum space (.str "enum") stored defined =
      .ok (.enumeration full given symbols (default.map (arranged compact)), full :: defined) := by
  unfold normalizeEnum
  rw [Run.bind_of_ok introduced]
  dsimp only
  rw [read.listed, arranged_keys keys, read.defaulted]
  dsimp only [Json.elements]
  rw [Run.bind_of_ok (lift_eq_ok.2 ⟨rfl, rfl⟩), keys]
  show (if !Json.allDistinct symbols then _ else _ : Normalizing Form) (full :: defined) = _
  rw [distinct]
  rfl

theorem fixedAttributes_again {members stored : List (String × Json)}
    (kept : ∀ key ∈ Form.fixedKeys,
      lookup key stored = (lookup key members).map (arranged compact)) :
    fixedAttributes stored = Json.mapMembers (arranged compact) (fixedAttributes members) := by
  unfold fixedAttributes Json.mapMembers
  rw [List.map_filterMap]
  refine List.filterMap_congr fun key mem => ?_
  rw [kept key mem]
  cases lookup key members <;> rfl

theorem ordered_fixed_again (full : String) (aliases : List Json) (size : Json)
    (attributes : List (String × Json)) :
    (Form.fixed full (aliases.map (arranged compact)) (arranged compact size)
      (Json.mapMembers (arranged compact) attributes)).ordered =
      (Form.fixed full aliases size attributes).ordered := by
  show arranged compact (.obj (fixedMembers full _ _ _)) =
    arranged compact (.obj (fixedMembers full aliases size attributes))
  apply Json.arranged_obj_congr
  unfold fixedMembers
  simp only [mapMembers_append, mapMembers_aliasMember, map_arranged_twice]
  simp [Json.mapMembers, Json.arranged_arranged]

theorem normalizeFixed_of_read {space full : String} {aliases given : List Json} {size : Json}
    {members stored : List (String × Json)} {defined : List String}
    (read : FixedRead full aliases size members stored)
    (introduced : introduce space (.str "fixed") stored defined =
      .ok ((full, given), full :: defined)) :
    normalizeFixed space (.str "fixed") stored defined =
      .ok (.fixed full given (arranged compact size)
        (Json.mapMembers (arranged compact) (fixedAttributes members)), full :: defined) := by
  unfold normalizeFixed
  rw [Run.bind_of_ok introduced]
  dsimp only
  rw [read.sized, fixedAttributes_again read.kept]
  rfl

/-! ## Primitive types -/

/-- The attributes that were kept are kept again. -/
theorem attributes_readBack (name : String) (members : List (String × Json)) :
    (attributes (readBack (annotatedMembers name (attributes members)))).Perm
      (Json.mapMembers (arranged compact) (attributes members)) := by
  have filtered := (readBack_perm (annotatedMembers name (attributes members))).filter
    fun m => m.1 != "type" && m.1 != "doc"
  refine filtered.trans (.of_eq ?_)
  show List.filter _ (("type", _) :: Json.mapMembers (arranged compact) (attributes members)) = _
  rw [List.filter_cons_of_neg (by simp), List.filter_eq_self]
  intro m mem
  obtain ⟨m', inside, rfl⟩ := List.mem_map.1 mem
  exact (List.mem_filter.1 inside).2

/-- A primitive type with attributes is read back with the same ones. -/
theorem primitiveForm_again {name : String} {members : List (String × Json)}
    (distinct : (Json.keys members).Nodup) (some : attributes members ≠ []) :
    (primitiveForm name (readBack (annotatedMembers name (attributes members)))).ordered =
      (Form.annotated name (attributes members)).ordered := by
  have kept := attributes_readBack name members
  have once : arranged compact (.obj (Json.mapMembers (arranged compact)
      (annotatedMembers name (attributes members)))) =
      arranged compact (.obj (annotatedMembers name (attributes members))) := by
    apply Json.arranged_obj_congr
    simp [Json.mapMembers, Json.arranged_arranged]
  have keys := keys_annotatedMembers name distinct
  rw [← Json.keys_mapMembers (arranged compact)] at keys
  unfold primitiveForm
  split
  · next none =>
    rw [none] at kept
    exact absurd (List.map_eq_nil_iff.1 kept.nil_eq.symm) some
  · exact (Json.arranged_obj_perm compact rfl (kept.symm.cons _) keys).symm.trans once

/-- The word of a primitive type is the type. -/
theorem resolve_primitive {name : String} (primitive : isPrimitive name = true) (space : String)
    (defined : List String) : resolve name space defined = .ok (.name name, defined) := by
  unfold resolve
  rw [if_pos primitive]
  rfl

theorem normalizeType_primitive {name : String} (primitive : isPrimitive name = true)
    {members : List (String × Json)} (typed : lookup "type" members = some (.str name))
    (space : String) (defined : List String) :
    normalizeType space (.obj members) defined = .ok (primitiveForm name members, defined) := by
  rw [normalizeType_other space typed (isConstructor_primitive primitive), if_neg (by simp)]
  unfold normalizeOther
  dsimp only
  rw [if_pos primitive]
  rfl

theorem settles_primitive {name : String} (primitive : isPrimitive name = true)
    {members : List (String × Json)} (distinct : (Json.keys members).Nodup) (space : String)
    (defined : List String) :
    ∃ again, normalizeType space (primitiveForm name members).ordered defined =
      .ok (again, defined) ∧ again.ordered = (primitiveForm name members).ordered := by
  by_cases none : attributes members = []
  · have plain : primitiveForm name members = .name name := by
      unfold primitiveForm
      rw [none]
    rw [plain]
    refine ⟨.name name, ?_, rfl⟩
    show normalizeType space (.str name) defined = _
    rw [normalizeType_str, resolve_primitive primitive]
  · have annotated : primitiveForm name members = .annotated name (attributes members) := by
      unfold primitiveForm
      split
      · next empty => exact absurd empty none
      · rfl
    rw [annotated]
    have typed : lookup "type" (readBack (annotatedMembers name (attributes members))) =
        some (.str name) := by
      rw [lookup_readBack (keys_annotatedMembers name distinct)]
      rfl
    refine ⟨_, ?_, primitiveForm_again distinct none⟩
    rw [readBack_annotated, normalizeType_primitive primitive typed]

/-! ## Parts without defects -/

theorem tidy_branch {branches : List Form}
    (tidy : ∀ node ∈ (Form.union branches).nodes, node.Tidy) :
    ∀ branch ∈ branches, ∀ node ∈ branch.nodes, node.Tidy := by
  intro branch mem node inside
  refine tidy node ?_
  rw [Form.nodes_union]
  exact List.mem_cons_of_mem _ (List.mem_flatMap.2 ⟨branch, mem, inside⟩)

theorem tidy_field {isError : Bool} {full : String} {aliases : List Json}
    {fields : List (FieldHead × Form)}
    (tidy : ∀ node ∈ (Form.record isError full aliases fields).nodes, node.Tidy) :
    ∀ f ∈ fields, ∀ node ∈ f.2.nodes, node.Tidy := by
  intro f mem node inside
  refine tidy node ?_
  rw [Form.nodes_record]
  exact List.mem_cons_of_mem _ (List.mem_flatMap.2 ⟨f, mem, inside⟩)

/-! ## Types -/

/-- Normalizing the value of a canonical form gives that value again, and the same names, if the
full names in it stand. -/
theorem normalizeType_again {space : String} {v : Json} {form : Form} {before after : List String}
    (ok : normalizeType space v before = .ok (form, after)) :
    Settles space v before form after := by
  refine normalizeType_traced (motive := Settles) ?word ?union ?container ?record ?enumeration
    ?fixed ?primitive ?reference v ok
  case word =>
    intro space name D form D' ok _ _ _
    obtain ⟨n, rfl, again⟩ := resolve_again ok
    refine ⟨.name n, ?_, rfl⟩
    show normalizeType space (.str n) D = _
    rw [normalizeType_str, again]
  case reference =>
    intro space members name D form D' _ _ _ ok _ _ _
    obtain ⟨n, rfl, again⟩ := resolve_again ok
    refine ⟨.name n, ?_, rfl⟩
    show normalizeType space (.str n) D = _
    rw [normalizeType_str, again]
  case primitive =>
    intro space members name D typed primitive plain _ _
    exact settles_primitive primitive plain.self space D
  case union =>
    intro space branches D forms D' nonempty along plain tidy stand
    obtain ⟨again, made, same⟩ := settles_branches along ((Json.everywhere_arr branches).1 plain).2
      (tidy_branch tidy) stand
    obtain ⟨first, rest, rfl⟩ := List.exists_cons_of_ne_nil nonempty
    refine ⟨.union again, ?_, ordered_union same⟩
    rw [readBack_union, List.map_cons, normalizeType]
    · rw [← List.map_cons, Run.bind_of_ok made]
      rfl
    · intro empty
      cases empty
  case container =>
    intro space c members v D part D' typed found settles plain tidy stand
    have tidyPart : ∀ node ∈ part.nodes, node.Tidy := by
      rw [nodes_container] at tidy
      exact (List.forall_mem_cons.1 tidy).2
    obtain ⟨again, made, same⟩ :=
      settles (plain.lookup found) tidyPart (c.namesStand_iff.1 stand)
    have read := partRead c part
    refine ⟨c.form again, ?_, ordered_container c same⟩
    rw [readBack_container, normalizeType_container space read.typed, normalizeUnder_eq, read.held]
    exact Run.bind_of_ok made _
  case record =>
    intro space isError members full aliases items D fields D' typed introduced found sound along
      plain tidy stand
    obtain ⟨nonempty, differ⟩ := sound
    obtain ⟨again, made, same⟩ := settles_fields full [] along
      ((Json.everywhere_arr items).1 (plain.lookup found)).2 (tidy_field tidy) stand.2 differ
      (fun _ _ => rfl)
    obtain ⟨reintroduced, word, listed⟩ := recordRead isError full aliases fields
    refine ⟨.record isError full (aliases.map (arranged compact)) again, ?_,
      ordered_record_again isError full aliases same⟩
    rw [readBack_record, normalizeType_record space word,
      Run.bind_of_ok (introduce_again plain introduced stand.1 reintroduced _ D)]
    dsimp only
    obtain ⟨first, rest, rfl⟩ := List.exists_cons_of_ne_nil nonempty
    rw [normalizeFieldsOf_eq, listed]
    exact Run.bind_of_ok made _
  case enumeration =>
    intro space members full aliases symbols items D typed introduced found listed sound plain _
      stand
    obtain ⟨keys, distinct⟩ := sound
    have read := enumRead full aliases items (lookup "default" members)
    have same := ordered_enumeration_again full aliases items (lookup "default" members)
    rw [arranged_keys keys] at same
    refine ⟨_, ?_, same⟩
    rw [readBack_enumeration, normalizeType_enumeration space read.typed]
    exact normalizeEnum_of_read read keys distinct
      (introduce_again plain introduced stand read.toReintroduced _ D)
  case fixed =>
    intro space members full aliases size D typed introduced found plain tidy stand
    have read := fixedRead full aliases size members
    refine ⟨_, ?_, ordered_fixed_again full aliases size (fixedAttributes members)⟩
    rw [readBack_fixed, normalizeType_fixed space read.typed]
    exact normalizeFixed_of_read read
      (introduce_again plain introduced stand read.toReintroduced _ D)

end AvroRegistry.Schema
