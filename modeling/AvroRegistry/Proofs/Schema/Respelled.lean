import AvroRegistry.Proofs.Compatibility.References
import AvroRegistry.Proofs.Schema.Linked
import AvroRegistry.Proofs.Schema.Submitted
import Mathlib.Logic.Relation

/-!
# Spelling does not matter

A schema can be spelled in many ways: the members of an object come in any order and with or without
`doc`, a primitive type is a word or an object, a name is dotted or stands beside its namespace, a
reference is short or full. `RespelledHere` lists these ways for one place of a schema, `OnePart`
says where the places are, and `Respelled` is one respelling at any depth.

None of them changes the outline of a schema (`outline_respelled`), whatever the names defined
around it. The outline determines the canonical text, so schemas that differ in nothing but any
number of respellings have one text and one fingerprint (`text_respelled`).
-/

namespace AvroRegistry.Schema

open Json (lookup)

/-! ## Respellings -/

/-- The members of two objects agree under every key but some, in whatever order they are. -/
structure AgreeBut (but : List String) (members members' : List (String × Json)) : Prop where
  distinct : (Json.keys members).Nodup
  distinct' : (Json.keys members').Nodup
  same : ∀ key, key ∉ but → lookup key members = lookup key members'

/-- An object is a named type. -/
def IsNamed (members : List (String × Json)) : Prop :=
  ∃ kind, isNamedKind kind = true ∧ lookup "type" members = some (.str kind)

/-- Two records differ in one field. -/
structure OneField (members members' field field' : List (String × Json)) : Prop where
  typed : ∃ isError, lookup "type" members = some (.str (recordKind isError))
  agree : AgreeBut ["fields"] members members'
  fields : ∃ front back, lookup "fields" members = some (.arr (front ++ .obj field :: back)) ∧
    lookup "fields" members' = some (.arr (front ++ .obj field' :: back))

/-- A respelling of a field that leaves its type as it is. -/
inductive FieldRespelled (members members' : List (String × Json)) : Prop where
  /-- The members come in another order. -/
  | reordered (distinct : (Json.keys members).Nodup) (perm : members.Perm members')
  /-- `doc` comes, goes or changes. -/
  | documented (agree : AgreeBut ["doc"] members members')
  /-- Attributes that nothing reads come, go or change. -/
  | annotated (keys : List String) (unread : ∀ key ∈ keys, key ∉ fieldKeys)
      (agree : AgreeBut keys members members')
  /-- The ascending order is written out. -/
  | ordered (agree : AgreeBut ["order"] members members')
      (absent : lookup "order" members = none)
      (ascending : lookup "order" members' = some (.str "ascending"))
  /-- The aliases come in another order. -/
  | permuted (agree : AgreeBut ["aliases"] members members') (texts texts' : List String)
      (perm : texts.Perm texts') (listed : lookup "aliases" members = some (.arr (texts.map .str)))
      (listed' : lookup "aliases" members' = some (.arr (texts'.map .str)))

/-- A respelling of a type in a namespace that leaves its parts as they are. -/
inductive RespelledHere (space : String) : Json → Json → Prop where
  /-- The members come in another order. -/
  | reordered {members members' : List (String × Json)} (distinct : (Json.keys members).Nodup)
      (perm : members.Perm members') : RespelledHere space (.obj members) (.obj members')
  /-- `doc` comes, goes or changes. -/
  | documented {members members' : List (String × Json)}
      (agree : AgreeBut ["doc"] members members') :
      RespelledHere space (.obj members) (.obj members')
  /-- Attributes that nothing reads of a type of this kind come, go or change. -/
  | annotated {members members' : List (String × Json)} (kind : String)
      (isKind : isConstructor (.str kind) = true) (typed : lookup "type" members = some (.str kind))
      (keys : List String) (unread : ∀ key ∈ keys, key ∉ readKeys kind)
      (agree : AgreeBut keys members members') :
      RespelledHere space (.obj members) (.obj members')
  /-- A primitive type is written as an object. -/
  | primitive (name : String) (isName : isPrimitive name = true) :
      RespelledHere space (.str name) (.obj [("type", .str name)])
  /-- A namespace is written in front of the name. -/
  | dotted {members members' : List (String × Json)} (named : IsNamed members)
      (name inner : String) (filled : name ≠ "") (plain : isDotted name = false)
      (somewhere : inner ≠ "") (agree : AgreeBut ["name", "namespace"] members members')
      (short : lookup "name" members = some (.str name))
      (beside : lookup "namespace" members = some (.str inner))
      (long : lookup "name" members' = some (.str (inner ++ "." ++ name)))
      (absent : lookup "namespace" members' = none) :
      RespelledHere space (.obj members) (.obj members')
  /-- A namespace beside a dotted name comes, goes or changes. -/
  | moved {members members' : List (String × Json)} (named : IsNamed members) (name : String)
      (full : isDotted name = true) (here : lookup "name" members = some (.str name))
      (agree : AgreeBut ["namespace"] members members') :
      RespelledHere space (.obj members) (.obj members')
  /-- A reference is written as the full name it means. -/
  | reference (name : String) (other : isPrimitive name = false) :
      RespelledHere space (.str name) (.str (qualify name space))
  /-- So is a reference that an object holds. -/
  | referenceUnder {members members' : List (String × Json)} (name : String)
      (plain : isConstructor (.str name) = false) (other : isPrimitive name = false)
      (agree : AgreeBut ["type"] members members')
      (short : lookup "type" members = some (.str name))
      (long : lookup "type" members' = some (.str (qualify name space))) :
      RespelledHere space (.obj members) (.obj members')
  /-- An alias of a named type is written as a full name. -/
  | qualified {members members' : List (String × Json)} (named : IsNamed members)
      (agree : AgreeBut ["aliases"] members members') (front back : List Json) (name : String)
      (short : lookup "aliases" members = some (.arr (front ++ .str name :: back)))
      (long : lookup "aliases" members' = some
        (.arr (front ++ .str (qualify name (spaceOf (fullName space members))) :: back))) :
      RespelledHere space (.obj members) (.obj members')
  /-- The aliases of a named type come in another order. -/
  | permuted {members members' : List (String × Json)} (named : IsNamed members)
      (agree : AgreeBut ["aliases"] members members') (texts texts' : List String)
      (perm : texts.Perm texts') (listed : lookup "aliases" members = some (.arr (texts.map .str)))
      (listed' : lookup "aliases" members' = some (.arr (texts'.map .str))) :
      RespelledHere space (.obj members) (.obj members')
  /-- A field of a record is respelled. -/
  | field {members members' field field' : List (String × Json)}
      (one : OneField members members' field field') (respelled : FieldRespelled field field') :
      RespelledHere space (.obj members) (.obj members')

/-- Two types in a namespace differ in one part, and that part is in a namespace of its own. -/
inductive OnePart (space : String) : Json → Json → String → Json → Json → Prop where
  | branch (front back : List Json) (v w : Json) :
      OnePart space (.arr (front ++ v :: back)) (.arr (front ++ w :: back)) space v w
  | items {members members' : List (String × Json)} {v w : Json}
      (typed : lookup "type" members = some (.str "array"))
      (agree : AgreeBut ["items"] members members') (found : lookup "items" members = some v)
      (found' : lookup "items" members' = some w) :
      OnePart space (.obj members) (.obj members') space v w
  | values {members members' : List (String × Json)} {v w : Json}
      (typed : lookup "type" members = some (.str "map"))
      (agree : AgreeBut ["values"] members members') (found : lookup "values" members = some v)
      (found' : lookup "values" members' = some w) :
      OnePart space (.obj members) (.obj members') space v w
  | fieldType {members members' field field' : List (String × Json)} {v w : Json}
      (one : OneField members members' field field') (agree : AgreeBut ["type"] field field')
      (found : lookup "type" field = some v) (found' : lookup "type" field' = some w) :
      OnePart space (.obj members) (.obj members') (spaceOf (fullName space members)) v w

/-- One respelling of a type in a namespace, at any depth. -/
inductive Respelled : String → Json → Json → Prop where
  | here {space : String} {v w : Json} (respelled : RespelledHere space v w) : Respelled space v w
  | inside {space inner : String} {v w v' w' : Json} (part : OnePart space v w inner v' w')
      (respelled : Respelled inner v' w') : Respelled space v w

/-- Two schemas differ in nothing but any number of respellings, there and back. -/
def SpelledAlike : Json → Json → Prop := Relation.EqvGen (Respelled "")

/-! ## What respellings leave alone -/

section

variable {space : String} {members members' : List (String × Json)}

theorem AgreeBut.of_perm (distinct : (Json.keys members).Nodup) (perm : members.Perm members')
    (but : List String) : AgreeBut but members members' where
  distinct := distinct
  distinct' := (perm.map _).nodup_iff.1 distinct
  same key _ := Json.lookup_perm perm distinct key

/-- Only the keys that occur have to be looked up. -/
theorem AgreeBut.of_keys {but : List String} (distinct : (Json.keys members).Nodup)
    (distinct' : (Json.keys members').Nodup)
    (same : ∀ key ∈ Json.keys members ++ Json.keys members', key ∉ but →
      lookup key members = lookup key members') : AgreeBut but members members' where
  distinct := distinct
  distinct' := distinct'
  same key outside := by
    by_cases occurs : key ∈ Json.keys members ++ Json.keys members'
    · exact same key occurs outside
    · simp only [List.mem_append, not_or, ← Json.lookup_isSome, Bool.not_eq_true,
        Option.isSome_eq_false_iff, Option.isNone_iff_eq_none] at occurs
      rw [occurs.1, occurs.2]

theorem attributes_perm (agree : AgreeBut ["doc"] members members') :
    (attributes members).Perm (attributes members') := by
  have kept : ∀ {ms : List (String × Json)}, (Json.keys ms).Nodup → ∀ m, m ∈ attributes ms ↔
      (m.1 ≠ "type" ∧ m.1 ≠ "doc") ∧ lookup m.1 ms = some m.2 := by
    intro ms distinct m
    simp only [attributes, List.mem_filter, Bool.and_eq_true, bne_iff_ne, ne_eq]
    rw [and_comm]
    exact and_congr_right fun _ => ⟨Json.lookup_of_mem distinct, Json.mem_of_lookup⟩
  have nodup : ∀ {ms : List (String × Json)}, (Json.keys ms).Nodup → (attributes ms).Nodup :=
    fun distinct => (List.Nodup.of_map _ distinct).filter _
  refine (List.perm_ext_iff_of_nodup (nodup agree.distinct) (nodup agree.distinct')).2 fun m => ?_
  rw [kept agree.distinct, kept agree.distinct']
  refine and_congr_right fun h => ?_
  rw [agree.same m.1 (by simpa using h.2)]

theorem outlinePrimitive_congr (agree : AgreeBut ["doc"] members members') (name : String) :
    outlinePrimitive name members = outlinePrimitive name members' := by
  have distinct : (Json.keys (attributes members)).Nodup :=
    (List.filter_sublist.map _).nodup agree.distinct
  unfold outlinePrimitive
  rw [Json.arrange_perm_eq Json.compact rfl (attributes_perm agree) distinct]

/-- No kind of type has a member that is read under `doc`. -/
theorem doc_unread : ∀ kind ∈ constructors, "doc" ∉ readKeys kind := by
  decide

theorem outline_documented (agree : AgreeBut ["doc"] members members') :
    outline space (.obj members) = outline space (.obj members') := by
  have typed := agree.same "type" (by simp)
  have read : ∀ kind, isConstructor (.str kind) = true →
      lookup "type" members = some (.str kind) →
      outline space (.obj members) = outline space (.obj members') := by
    intro kind isKind h
    refine outline_read isKind h fun key mem => agree.same key fun doc => ?_
    obtain rfl := List.mem_singleton.1 doc
    exact doc_unread kind (by simpa [isConstructor] using isKind) mem
  cases shape members with
  | untyped h => rw [outline_untyped h, outline_untyped (typed ▸ h)]
  | record isError h => exact read _ (by cases isError <;> rfl) h
  | enumeration h => exact read _ rfl h
  | fixed h => exact read _ rfl h
  | array h => exact read _ rfl h
  | map h => exact read _ rfl h
  | other type h plain =>
    rw [outline_other h plain, outline_other (typed ▸ h) plain]
    cases type with
    | str name => rw [outlineOther, outlineOther, outlinePrimitive_congr agree]
    | _ => rfl

/-- A named type whose name and aliases come to the same keeps its outline. -/
theorem outline_renamed (named : IsNamed members) {but : List String}
    (agree : AgreeBut but members members')
    (only : ∀ key ∈ but, key ∈ ["name", "namespace", "aliases"])
    (full : fullName space members = fullName space members')
    (aliases : fullAliases space members = fullAliases space members') :
    outline space (.obj members) = outline space (.obj members') := by
  obtain ⟨kind, isNamed, typed⟩ := named
  have unread : ∀ kind ∈ namedKinds, ∀ key ∈ ["name", "namespace", "aliases"],
      key ∉ "type" :: partKeys kind := by decide
  have kept : ∀ key ∈ "type" :: partKeys kind, lookup key members = lookup key members' :=
    fun key mem => agree.same key fun inside =>
      unread kind (by simpa [isNamedKind] using isNamed) key (only key inside) mem
  exact outline_named isNamed typed (kept "type" List.mem_cons_self ▸ typed) full aliases
    fun key mem => kept key (List.mem_cons_of_mem _ mem)

/-! ## Names -/

theorem meaning_qualify {name : String} (other : isPrimitive name = false) (space : String) :
    meaning (qualify name space) space = meaning name space := by
  simp [meaning, other, isPrimitive_qualify other, qualify_qualify]

theorem isConstructor_qualify {name : String} (plain : isConstructor (.str name) = false)
    (space : String) : isConstructor (.str (qualify name space)) = false := by
  obtain same | ⟨-, longer⟩ := qualify_cases name space
  · rw [same, plain]
  · by_contra word
    have mem : qualify name space ∈ constructors := by simpa [isConstructor] using word
    have undotted := plain_words _ (List.mem_append_right _ mem)
    rw [longer, dotted_append] at undotted
    cases undotted

theorem fullName_dotted {name : String} (here : lookup "name" members = some (.str name))
    (dotted : isDotted name = true) : fullName space members = name := by
  unfold fullName
  rw [here]
  exact qualify_dotted dotted _

theorem fullName_beside {name inner : String} (short : lookup "name" members = some (.str name))
    (plain : isDotted name = false) (beside : lookup "namespace" members = some (.str inner))
    (somewhere : inner ≠ "") : fullName space members = inner ++ "." ++ name := by
  unfold fullName enclosing
  rw [short, beside]
  dsimp only [Option.getD_some]
  rw [enclosing_text, qualify_plain plain somewhere]

/-! ## Aliases -/

theorem sorted_nil : Json.sorted [] = .ok [] := by
  simp [Json.sorted, Json.texts?, Json.sortTexts]

theorem typeAliases_arr {items : List Json}
    (listed : lookup "aliases" members = some (.arr items)) :
    typeAliases space members = (qualifyAliases space items).bind Json.sorted := by
  unfold typeAliases
  rw [listed]
  cases items with
  | nil => exact sorted_nil.symm
  | cons first rest =>
    show (if true = true then _ else _) = _
    rw [if_pos rfl]
    dsimp only [Json.elements]
    cases qualifyAliases space (first :: rest) <;> rfl

theorem qualifyAliases_texts (texts : List String) :
    qualifyAliases space (texts.map .str) =
      .ok ((texts.map fun t => qualify t space).map .str) := by
  induction texts with
  | nil => rfl
  | cons t rest ih =>
    rw [List.map_cons, qualifyAliases, qualifyAlias, ih]
    rfl

theorem qualifyAliases_full (front back : List Json) (name : String) :
    qualifyAliases space (front ++ .str (qualify name space) :: back) =
      qualifyAliases space (front ++ .str name :: back) := by
  induction front with
  | nil =>
    rw [List.nil_append, List.nil_append, qualifyAliases, qualifyAliases, qualifyAlias,
      qualifyAlias, qualify_qualify]
  | cons item rest ih => rw [List.cons_append, List.cons_append, qualifyAliases, qualifyAliases, ih]

theorem fieldAliases_arr {items : List Json}
    (listed : lookup "aliases" members = some (.arr items)) :
    fieldAliases members = Json.sorted items := by
  unfold fieldAliases
  rw [listed]
  cases items with
  | nil => exact sorted_nil.symm
  | cons first rest => rfl

theorem fieldAliases_congr (aliases : lookup "aliases" members = lookup "aliases" members') :
    fieldAliases members = fieldAliases members' := by
  unfold fieldAliases
  rw [aliases]

theorem fieldOrder_congr (order : lookup "order" members = lookup "order" members') :
    fieldOrder members = fieldOrder members' := by
  unfold fieldOrder
  rw [order]

/-! ## Fields -/

/-- The outline of a field in a namespace. -/
def outlineField (space : String) (members : List (String × Json)) : FieldHead × Form :=
  (outlineHead members, outlineUnder "type" space members)

theorem outlineField_congr (head : outlineHead members = outlineHead members')
    (type : lookup "type" members = lookup "type" members') :
    outlineField space members = outlineField space members' := by
  unfold outlineField
  rw [head, outlineUnder_eq, outlineUnder_eq, type]

/-- Two fields of which all that is read is the same. -/
theorem outlineField_read {but : List String} (agree : AgreeBut but members members')
    (unread : ∀ key ∈ but, key ∉ fieldKeys) :
    outlineField space members = outlineField space members' := by
  have same : ∀ key ∈ fieldKeys, lookup key members = lookup key members' :=
    fun key mem => agree.same key fun inside => unread key inside mem
  simp only [fieldKeys, List.forall_mem_cons] at same
  obtain ⟨name, type, default, aliases, order, -⟩ := same
  exact outlineField_congr (outlineHead_congr name default (fieldAliases_congr aliases)
    (fieldOrder_congr order)) type

theorem outlineField_respelled (respelled : FieldRespelled members members') :
    outlineField space members = outlineField space members' := by
  cases respelled with
  | reordered distinct perm => exact outlineField_read (.of_perm distinct perm []) (by simp)
  | documented agree => exact outlineField_read agree (by simp [fieldKeys])
  | annotated keys unread agree => exact outlineField_read agree unread
  | ordered agree absent ascending =>
    have order : fieldOrder members = fieldOrder members' := by
      unfold fieldOrder
      rw [absent, ascending]
      rfl
    exact outlineField_congr (outlineHead_congr (agree.same "name" (by simp))
      (agree.same "default" (by simp)) (fieldAliases_congr (agree.same "aliases" (by simp))) order)
      (agree.same "type" (by simp))
  | permuted agree texts texts' perm listed listed' =>
    have aliases : fieldAliases members = fieldAliases members' := by
      rw [fieldAliases_arr listed, fieldAliases_arr listed', Json.sorted_texts_perm perm]
    exact outlineField_congr (outlineHead_congr (agree.same "name" (by simp))
      (agree.same "default" (by simp)) aliases (fieldOrder_congr (agree.same "order" (by simp))))
      (agree.same "type" (by simp))

/-- Two records that differ in one field have one outline if the field has. -/
theorem outline_oneField {field field' : List (String × Json)}
    (one : OneField members members' field field')
    (same : outlineField (spaceOf (fullName space members)) field =
      outlineField (spaceOf (fullName space members)) field') :
    outline space (.obj members) = outline space (.obj members') := by
  obtain ⟨⟨isError, typed⟩, agree, front, back, listed, listed'⟩ := one
  have typed' := agree.same "type" (by simp) ▸ typed
  have full := fullName_congr space (agree.same "name" (by simp))
    (agree.same "namespace" (by simp))
  have fields : outlineFields (spaceOf (fullName space members)) (front ++ .obj field :: back) =
      outlineFields (spaceOf (fullName space members)) (front ++ .obj field' :: back) := by
    rw [outlineFields_append, outlineFields_append, outlineFields, outlineFields]
    exact congrArg (fun f => _ ++ f :: _) same
  rw [outline_record typed, outline_record typed', ← full,
    fullAliases_congr full (agree.same "aliases" (by simp)), listed, listed', outlineListed,
    outlineListed, fields]

/-! ## Types -/

/-- A respelling does not change the outline of a type. -/
theorem outline_here {v w : Json} (respelled : RespelledHere space v w) :
    outline space v = outline space w := by
  cases respelled with
  | reordered distinct perm => exact outline_documented (.of_perm distinct perm _)
  | documented agree => exact outline_documented agree
  | annotated kind isKind typed keys unread agree =>
    exact outline_read isKind typed fun key mem =>
      agree.same key fun inside => unread key inside mem
  | primitive name isName =>
    have typed : lookup "type" [("type", .str name)] = some (.str name) := by simp
    have none : Json.arrange Json.compact (attributes [("type", .str name)]) = [] :=
      (Json.arrange_perm Json.compact _).eq_nil
    rw [outline_other typed (isConstructor_primitive isName), outlineOther, if_pos isName,
      outline_str, meaning, if_pos isName, outlinePrimitive, none]
  | dotted named name inner filled plain somewhere agree short beside long absent =>
    have full : fullName space _ = fullName space _ :=
      (fullName_beside short plain beside somewhere).trans
        (fullName_dotted long (dotted_append inner name)).symm
    exact outline_renamed named agree (by simp) full
      (fullAliases_congr full (agree.same "aliases" (by simp)))
  | moved named name dotted here agree =>
    have full : fullName space _ = fullName space _ :=
      (fullName_dotted here dotted).trans
        (fullName_dotted (agree.same "name" (by simp) ▸ here) dotted).symm
    exact outline_renamed named agree (by simp) full
      (fullAliases_congr full (agree.same "aliases" (by simp)))
  | reference name other => rw [outline_str, outline_str, meaning_qualify other]
  | referenceUnder name plain other agree short long =>
    rw [outline_other short plain, outline_other long (isConstructor_qualify plain space),
      outlineOther, outlineOther, other, isPrimitive_qualify other, meaning_qualify other]
    rfl
  | qualified named agree front back name short long =>
    have full := fullName_congr space (agree.same "name" (by simp))
      (agree.same "namespace" (by simp))
    refine outline_renamed named agree (by simp) full ?_
    unfold fullAliases
    rw [← full, typeAliases_arr short, typeAliases_arr long, qualifyAliases_full]
  | permuted named agree texts texts' perm listed listed' =>
    have full := fullName_congr space (agree.same "name" (by simp))
      (agree.same "namespace" (by simp))
    refine outline_renamed named agree (by simp) full ?_
    unfold fullAliases
    rw [← full, typeAliases_arr listed, typeAliases_arr listed', qualifyAliases_texts,
      qualifyAliases_texts]
    dsimp only [Except.bind]
    rw [Json.sorted_texts_perm (perm.map _)]
  | field one respelled => exact outline_oneField one (outlineField_respelled respelled)

theorem outline_part (c : Container) {v w : Json}
    (typed : lookup "type" members = some (.str c.word)) (agree : AgreeBut [c.key] members members')
    (found : lookup c.key members = some v) (found' : lookup c.key members' = some w)
    (same : outline space v = outline space w) :
    outline space (.obj members) = outline space (.obj members') := by
  have typed' := agree.same "type" (by simpa using c.type_ne_key) ▸ typed
  rw [outline_container typed, outline_container typed', found, found', Option.map_some,
    Option.map_some, same]

/-- The outline of a type is the same if that of the part is in which it differs. -/
theorem outline_onePart {inner : String} {v w v' w' : Json} (part : OnePart space v w inner v' w')
    (same : outline inner v' = outline inner w') : outline space v = outline space w := by
  cases part with
  | branch front back => simp [outline_arr, same]
  | items typed agree found found' => exact outline_part .array typed agree found found' same
  | values typed agree found found' => exact outline_part .map typed agree found found' same
  | fieldType one agree found found' =>
    refine outline_oneField one ?_
    have head : outlineHead _ = outlineHead _ :=
      outlineHead_congr (agree.same "name" (by simp)) (agree.same "default" (by simp))
        (fieldAliases_congr (agree.same "aliases" (by simp)))
        (fieldOrder_congr (agree.same "order" (by simp)))
    unfold outlineField
    rw [head, outlineUnder_eq, outlineUnder_eq, found, found', Option.map_some, Option.map_some,
      same]

end

/-! ## Schemas -/

theorem outline_respelled {space : String} {v w : Json} (respelled : Respelled space v w) :
    outline space v = outline space w := by
  induction respelled with
  | here respelled => exact outline_here respelled
  | inside part _ ih => exact outline_onePart part ih

theorem outline_spelledAlike {v w : Json} (alike : SpelledAlike v w) :
    outline "" v = outline "" w := by
  induction alike with
  | rel _ _ respelled => exact outline_respelled respelled
  | refl _ => rfl
  | symm _ _ _ ih => exact ih.symm
  | trans _ _ _ _ _ ih ih' => exact ih.trans ih'

/-- The outline of a schema determines its canonical text. -/
theorem text_of_outline {schema : Json} {raw : String} {v : Json} {c : Canonical}
    (given : submitted schema = .ok (raw, v)) (accepted : canonicalize schema = .ok c) :
    c.text = canonicalText (relink [] (outline "" v)).1.ordered := by
  obtain ⟨-, normalized⟩ := Compatibility.canonicalize_eq_ok given accepted
  obtain ⟨after, normalized⟩ := Compatibility.normalize_eq normalized
  obtain ⟨linked, made, same⟩ := relink_outline normalized (submitted_plain given)
  rw [made, same, canonicalText_ordered]
  rfl

/-- Schemas that differ in nothing but spelling have one canonical text and one fingerprint. -/
theorem text_respelled {schema schema' : Json} {raw raw' : String} {v v' : Json}
    {c c' : Canonical} (given : submitted schema = .ok (raw, v))
    (given' : submitted schema' = .ok (raw', v')) (alike : SpelledAlike v v')
    (accepted : canonicalize schema = .ok c) (accepted' : canonicalize schema' = .ok c') :
    c.text = c'.text ∧ c.fingerprint = c'.fingerprint := by
  have same : c.text = c'.text := by
    rw [text_of_outline given accepted, text_of_outline given' accepted',
      outline_spelledAlike alike]
  exact ⟨same, congrArg fingerprint same⟩

/-! ## One schema in two spellings -/

/-- The members of a record of orders, each of which may lead to a next one. -/
def orderMembers (head : List (String × Json)) (id next : Json) : List (String × Json) :=
  head ++ [("type", .str "record"), ("fields", .arr [.obj [("name", .str "id"), ("type", id)],
    .obj [("name", .str "next"), ("type", .arr [.str "null", next])]])]

/-- The record with a namespace beside its name, a short reference and a bare primitive type. -/
def briefOrder : Json :=
  .obj (orderMembers [("name", .str "Order"), ("namespace", .str "shop")] (.str "long")
    (.str "Order"))

/-- The record with a comment, full names and a primitive type in an object. -/
def fullOrder : Json :=
  .obj (orderMembers [("doc", .str "One order"), ("name", .str "shop.Order")]
    (.obj [("type", .str "long")]) (.str "shop.Order"))

theorem spelledAlike_order : SpelledAlike briefOrder fullOrder := by
  have dotted : Respelled "" briefOrder
      (.obj (orderMembers [("name", .str "shop.Order")] (.str "long") (.str "Order"))) :=
    .here (.dotted ⟨"record", by decide, by decide⟩ "Order" "shop" (by decide) (by decide)
      (by decide) (.of_keys (by decide) (by decide) (by decide)) rfl rfl rfl rfl)
  have documented : Respelled ""
      (.obj (orderMembers [("name", .str "shop.Order")] (.str "long") (.str "Order")))
      (.obj (orderMembers [("doc", .str "One order"), ("name", .str "shop.Order")] (.str "long")
        (.str "Order"))) :=
    .here (.documented (.of_keys (by decide) (by decide) (by decide)))
  have boxed : Respelled ""
      (.obj (orderMembers [("doc", .str "One order"), ("name", .str "shop.Order")] (.str "long")
        (.str "Order")))
      (.obj (orderMembers [("doc", .str "One order"), ("name", .str "shop.Order")]
        (.obj [("type", .str "long")]) (.str "Order"))) := by
    refine .inside (.fieldType ⟨⟨false, rfl⟩, ?_, [], _, rfl, rfl⟩ ?_ rfl rfl)
      (.here (.primitive "long" rfl))
    all_goals exact .of_keys (by decide) (by decide) (by decide)
  have qualified : Respelled ""
      (.obj (orderMembers [("doc", .str "One order"), ("name", .str "shop.Order")]
        (.obj [("type", .str "long")]) (.str "Order"))) fullOrder := by
    refine .inside (.fieldType ⟨⟨false, rfl⟩, ?_, [_], [], rfl, rfl⟩ ?_ rfl rfl)
      (.inside (.branch [.str "null"] [] (.str "Order") (.str "shop.Order"))
        (.here (.reference "Order" rfl)))
    all_goals exact .of_keys (by decide) (by decide) (by decide)
  exact (((Relation.EqvGen.rel _ _ dotted).trans _ _ _ (.rel _ _ documented)).trans _ _ _
    (.rel _ _ boxed)).trans _ _ _ (.rel _ _ qualified)

/-- The canonical form of both. -/
def orderForm : Form :=
  .record false "shop.Order" [] [(⟨.str "id", none, [], none⟩, .name "long"),
    (⟨.str "next", none, [], none⟩, .union [.name "null", .name "shop.Order"])]

theorem text_respelled_order :
    ∃ raw raw' c c', submitted briefOrder = .ok (raw, briefOrder) ∧
      submitted fullOrder = .ok (raw', fullOrder) ∧ SpelledAlike briefOrder fullOrder ∧
      canonicalize briefOrder = .ok c ∧ canonicalize fullOrder = .ok c' ∧
      c.text = c'.text ∧ c.fingerprint = c'.fingerprint := by
  have given : submitted briefOrder = .ok (briefOrder.encode Json.spaced, briefOrder) :=
    submitted_value (Json.readable_of_exact (by decide)) rfl rfl
  have given' : submitted fullOrder = .ok (fullOrder.encode Json.spaced, fullOrder) :=
    submitted_value (Json.readable_of_exact (by decide)) rfl rfl
  have accepted : canonicalize briefOrder = .ok ⟨orderForm, briefOrder.encode Json.spaced⟩ :=
    Compatibility.canonicalize_eq given rfl rfl
  have accepted' : canonicalize fullOrder = .ok ⟨orderForm, fullOrder.encode Json.spaced⟩ :=
    Compatibility.canonicalize_eq given' rfl rfl
  exact ⟨_, _, _, _, given, given', spelledAlike_order, accepted, accepted',
    text_respelled given given' spelledAlike_order accepted accepted'⟩

end AvroRegistry.Schema
