import AvroRegistry.Proofs.Schema.Normalized

/-!
# The members of the value of a form

What is found under a key in the value of a form. A form writes its members one group after the
other, some of them only if they say something, so a look-up goes through the groups in order.
-/

namespace AvroRegistry

namespace Json

theorem lookup_append (key : String) (xs ys : List (String × Json)) :
    lookup key (xs ++ ys) = (lookup key xs).or (lookup key ys) := by
  induction xs with
  | nil => simp
  | cons m rest ih =>
    obtain ⟨k, v⟩ := m
    rw [List.cons_append, lookup_cons, lookup_cons]
    split
    · rfl
    · exact ih

/-- A key that no member has is not found. -/
theorem lookup_eq_none {key : String} {members : List (String × Json)}
    (absent : ∀ m ∈ members, m.1 ≠ key) : lookup key members = none := by
  induction members with
  | nil => rfl
  | cons m rest ih =>
    obtain ⟨k, v⟩ := m
    rw [lookup_cons, if_neg (absent (k, v) List.mem_cons_self)]
    exact ih fun m mem => absent m (List.mem_cons_of_mem _ mem)

end Json

namespace Schema

open Json (lookup lookup_append)

theorem lookup_optional (key name : String) (v : Option Json) :
    lookup key (optional name v) = if name = key then v else none := by
  cases v with
  | none => simp [optional]
  | some v => simp [optional]

theorem lookup_aliasMember (key : String) (aliases : List Json) :
    lookup key (aliasMember aliases) =
      if "aliases" = key ∧ aliases ≠ [] then some (.arr aliases) else none := by
  cases aliases with
  | nil => simp [aliasMember]
  | cons first rest => simp [aliasMember]

/-- The attributes that a fixed type keeps are under three keys only. -/
theorem lookup_fixedAttributes {attributes : List (String × Json)}
    (kept : ∀ m ∈ attributes, m.1 ∈ Form.fixedKeys) {key : String} (other : key ∉ Form.fixedKeys) :
    lookup key attributes = none :=
  Json.lookup_eq_none fun m mem h => other (h ▸ kept m mem)

/-- A primitive type is no kind of named type. -/
theorem primitive_unnamed : ∀ p ∈ primitiveNames, isNamedKind p = false := by
  decide

/-! ## Members of types -/

/-- The members of the value of a record. -/
def recordMembers (isError : Bool) (full : String) (aliases : List Json)
    (fields : List (FieldHead × Form)) : List (String × Json) :=
  [("type", .str (recordKind isError)), ("name", .str full)] ++ aliasMember aliases ++
    [("fields", .arr (fields.map fun f => f.1.toJson f.2.toJson))]

theorem toJson_record (isError : Bool) (full : String) (aliases : List Json)
    (fields : List (FieldHead × Form)) :
    (Form.record isError full aliases fields).toJson =
      .obj (recordMembers isError full aliases fields) := by
  rw [Form.toJson, Form.fieldsToJson_eq_map]
  rfl

theorem toJson_union (branches : List Form) :
    (Form.union branches).toJson = .arr (branches.map Form.toJson) := by
  rw [Form.toJson, Form.branchesToJson_eq_map]

/-- The members of the value of an array or a map. -/
def partMembers (word key : String) (part : Json) : List (String × Json) :=
  [("type", .str word), (key, part)]

theorem keys_partMembers (c : Container) (part : Json) :
    (Json.keys (partMembers c.word c.key part)).Nodup := by
  simp [Json.keys, partMembers, c.type_ne_key]

theorem toJson_container (c : Container) (part : Form) :
    (c.form part).toJson = .obj (partMembers c.word c.key part.toJson) := by
  cases c <;> rfl

theorem lookup_recordMembers (key : String) (isError : Bool) (full : String)
    (aliases : List Json) (fields : List (FieldHead × Form)) :
    lookup key (recordMembers isError full aliases fields) =
      if key = "type" then some (.str (recordKind isError))
      else if key = "name" then some (.str full)
      else if key = "aliases" ∧ aliases ≠ [] then some (.arr aliases)
      else if key = "fields" then some (.arr (fields.map fun f => f.1.toJson f.2.toJson))
      else none := by
  unfold recordMembers
  rw [lookup_append, lookup_append, lookup_aliasMember]
  simp only [Json.lookup_cons, Json.lookup_nil, eq_comm (b := key)]
  repeat' split
  all_goals simp_all

/-- The members of the value of an enum. -/
def enumMembers (full : String) (aliases symbols : List Json) (default : Option Json) :
    List (String × Json) :=
  [("type", .str "enum"), ("name", .str full)] ++ aliasMember aliases ++
    [("symbols", .arr symbols)] ++ optional "default" default

theorem lookup_enumMembers (key full : String) (aliases symbols : List Json)
    (default : Option Json) :
    lookup key (enumMembers full aliases symbols default) =
      if key = "type" then some (.str "enum")
      else if key = "name" then some (.str full)
      else if key = "aliases" ∧ aliases ≠ [] then some (.arr aliases)
      else if key = "symbols" then some (.arr symbols)
      else if key = "default" then default
      else none := by
  unfold enumMembers
  rw [lookup_append, lookup_append, lookup_append, lookup_aliasMember, lookup_optional]
  simp only [Json.lookup_cons, Json.lookup_nil, eq_comm (b := key)]
  repeat' split
  all_goals simp_all

/-- The members of the value of a fixed type. -/
def fixedMembers (full : String) (aliases : List Json) (size : Json)
    (attributes : List (String × Json)) : List (String × Json) :=
  [("type", .str "fixed"), ("name", .str full)] ++ aliasMember aliases ++ [("size", size)] ++
    attributes

theorem lookup_fixedMembers {key : String} (full : String) (aliases : List Json) (size : Json)
    {attributes : List (String × Json)} (kept : ∀ m ∈ attributes, m.1 ∈ Form.fixedKeys)
    (other : key ∉ Form.fixedKeys) :
    lookup key (fixedMembers full aliases size attributes) =
      if key = "type" then some (.str "fixed")
      else if key = "name" then some (.str full)
      else if key = "aliases" ∧ aliases ≠ [] then some (.arr aliases)
      else if key = "size" then some size
      else none := by
  unfold fixedMembers
  rw [lookup_append, lookup_append, lookup_append, lookup_aliasMember,
    lookup_fixedAttributes kept other]
  simp only [Json.lookup_cons, Json.lookup_nil, eq_comm (b := key)]
  repeat' split
  all_goals simp_all

/-- The members of the value of a field. -/
def fieldMembers (head : FieldHead) (type : Json) : List (String × Json) :=
  [("name", head.name), ("type", type)] ++ optional "default" head.default ++
    aliasMember head.aliases ++ optional "order" head.order

theorem lookup_fieldMembers (key : String) (head : FieldHead) (type : Json) :
    lookup key (fieldMembers head type) =
      if key = "name" then some head.name
      else if key = "type" then some type
      else if key = "default" then head.default
      else if key = "aliases" ∧ head.aliases ≠ [] then some (.arr head.aliases)
      else if key = "order" then head.order
      else none := by
  unfold fieldMembers
  rw [lookup_append, lookup_append, lookup_append, lookup_aliasMember, lookup_optional,
    lookup_optional]
  simp only [Json.lookup_cons, Json.lookup_nil, eq_comm (b := key)]
  repeat' split
  all_goals simp_all

end Schema

end AvroRegistry
