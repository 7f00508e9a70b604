import AvroRegistry.Json.Basic

/-!
# Canonical schemas

`Form` is the type of schemas in canonical form: every named type has its full name, references are
full names, aliases are sorted, a primitive type without attributes is its bare name, and nothing
is kept that does not matter when data is read (`doc`, unknown attributes of records).

`Form.toJson` is the value a form stands for. Values inside a form that are not types, such as
defaults, sizes and field names, stay JSON values, because the language does not restrict them.
-/

namespace AvroRegistry.Schema

/-- What a record field has besides its type. An order is present only if it is not the ascending
one. -/
structure FieldHead where
  name : Json
  default : Option Json := none
  aliases : List Json := []
  order : Option Json := none

/-- A schema in canonical form. -/
inductive Form where
  /-- A primitive type without attributes, or a reference to a named type. -/
  | name (name : String)
  /-- A primitive type with attributes. -/
  | annotated (primitive : String) (attributes : List (String × Json))
  | union (branches : List Form)
  | array (items : Form)
  | map (values : Form)
  /-- A record; `isError` tells the two kinds apart. -/
  | record (isError : Bool) (full : String) (aliases : List Json)
      (fields : List (FieldHead × Form))
  | enumeration (full : String) (aliases : List Json) (symbols : List Json)
      (default : Option Json)
  | fixed (full : String) (aliases : List Json) (size : Json) (attributes : List (String × Json))

/-! ## The value of a form -/

/-- A member that is there only with a value. -/
def optional (key : String) : Option Json → List (String × Json)
  | none => []
  | some v => [(key, v)]

/-- The member that lists aliases, if there are any. -/
def aliasMember : List Json → List (String × Json)
  | [] => []
  | aliases => [("aliases", .arr aliases)]

/-- The word for a kind of record. -/
def recordKind (isError : Bool) : String := if isError then "error" else "record"

/-- The value of a field, given the value of its type. -/
def FieldHead.toJson (head : FieldHead) (type : Json) : Json :=
  .obj ([("name", head.name), ("type", type)] ++ optional "default" head.default ++
    aliasMember head.aliases ++ optional "order" head.order)

namespace Form

mutual

/-- The value a form stands for. -/
def toJson : Form → Json
  | name n => .str n
  | annotated p attributes => .obj (("type", .str p) :: attributes)
  | union branches => .arr (branchesToJson branches)
  | array items => .obj [("type", .str "array"), ("items", items.toJson)]
  | map values => .obj [("type", .str "map"), ("values", values.toJson)]
  | record isError full aliases fields =>
    .obj ([("type", .str (recordKind isError)), ("name", .str full)] ++ aliasMember aliases ++
      [("fields", .arr (fieldsToJson fields))])
  | enumeration full aliases symbols default =>
    .obj ([("type", .str "enum"), ("name", .str full)] ++ aliasMember aliases ++
      [("symbols", .arr symbols)] ++ optional "default" default)
  | fixed full aliases size attributes =>
    .obj ([("type", .str "fixed"), ("name", .str full)] ++ aliasMember aliases ++
      [("size", size)] ++ attributes)

/-- The values of the branches of a union. -/
def branchesToJson : List Form → List Json
  | [] => []
  | branch :: rest => branch.toJson :: branchesToJson rest

/-- The values of the fields of a record. -/
def fieldsToJson : List (FieldHead × Form) → List Json
  | [] => []
  | (head, type) :: rest => head.toJson type.toJson :: fieldsToJson rest

end

theorem branchesToJson_eq_map (branches : List Form) :
    branchesToJson branches = branches.map toJson := by
  induction branches with
  | nil => rfl
  | cons branch rest ih => simp [branchesToJson, ih]

theorem fieldsToJson_eq_map (fields : List (FieldHead × Form)) :
    fieldsToJson fields = fields.map fun f => f.1.toJson f.2.toJson := by
  induction fields with
  | nil => rfl
  | cons field rest ih =>
    obtain ⟨head, type⟩ := field
    simp [fieldsToJson, ih]

end Form

end AvroRegistry.Schema
