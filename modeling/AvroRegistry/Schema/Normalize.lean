import AvroRegistry.Schema.Accept
import AvroRegistry.Schema.Form

/-!
# Bringing a schema into canonical form

`normalize` turns a schema into its `Form`. It expects what `accept` lets through, and on that it
only refuses what the language allows but a registry has no use for: records without fields, empty
unions, names that are empty, fields or symbols that occur twice. A value that `accept` took
unseen may be anything, so every step says what happens on a value it was not made for.

Names are collected from left to right. A reference is looked up first in the namespace around it
and then as it stands.
-/

namespace AvroRegistry.Schema

/-- A step of normalizing: it may add full names of types, and it may refuse. -/
abbrev Normalizing (α : Type) : Type := StateT (List String) (Except Refusal) α

/-- Ends normalizing with a diagnosis. -/
def reject {α : Type} (d : Diagnosis) : Normalizing α := fun _ => .error (.diagnosis d)

/-- Ends normalizing with a breakdown. -/
def breakOff {α : Type} (b : Breakdown) : Normalizing α := fun _ => .error (.breakdown b)

/-- The result of a step that looks at no names. -/
def lift {α : Type} : Except Breakdown α → Normalizing α
  | .ok a => pure a
  | .error b => breakOff b

/-! ## Names -/

/-- The form of a name in type position. -/
def resolve (name space : String) : Normalizing Form := do
  if isPrimitive name then return .name name
  let defined ← get
  let full := qualify name space
  if defined.contains full then return .name full
  if defined.contains name then return .name name
  reject (.unresolved name)

/-- An alias in a namespace. A text that is no dotted name is qualified; so is any other value that
can be searched for a dot and does not contain one. -/
def qualifyAlias (space : String) : Json → Except Breakdown Json
  | .str name => .ok (.str (qualify name space))
  | .arr items =>
    if (Json.str ".").isIn items || space == "" then .ok (.arr items)
    else .ok (.str (space ++ "." ++ (Json.arr items).display))
  | .obj members =>
    if (Json.keys members).contains "." || space == "" then .ok (.obj members)
    else .ok (.str (space ++ "." ++ (Json.obj members).display))
  | _ => .error .wrongKind

/-- The aliases of a list in a namespace, as long as each can be one. -/
def qualifyAliases (space : String) : List Json → Except Breakdown (List Json)
  | [] => .ok []
  | first :: rest =>
    match qualifyAlias space first with
    | .error b => .error b
    | .ok full =>
      match qualifyAliases space rest with
      | .error b => .error b
      | .ok others => .ok (full :: others)

/-- The sorted aliases of a named type, none if the member is absent or says nothing. -/
def typeAliases (space : String) (members : List (String × Json)) :
    Except Breakdown (List Json) :=
  match Json.lookup "aliases" members with
  | none => .ok []
  | some aliases =>
    if aliases.truthy then
      match aliases.elements with
      | .error b => .error b
      | .ok items =>
        match qualifyAliases space items with
        | .error b => .error b
        | .ok full => Json.sorted full
    else .ok []

/-- The sorted aliases of a field, as they stand. -/
def fieldAliases (members : List (String × Json)) : Except Breakdown (List Json) :=
  match Json.lookup "aliases" members with
  | none => .ok []
  | some aliases =>
    if aliases.truthy then
      match aliases.elements with
      | .error b => .error b
      | .ok items => Json.sorted items
    else .ok []

/-- The full name and the sorted aliases of a named type, whose full name is defined from here
on. -/
def introduce (space : String) (type : Json) (members : List (String × Json)) :
    Normalizing (String × List Json) :=
  match Json.lookup "name" members with
  | some (.str name) => do
    if name = "" then reject (.unnamed type)
    let enclosing := (Json.lookup "namespace" members).getD (.str space)
    let full := qualify name (if enclosing.truthy then enclosing.display else "")
    let aliases ← lift (typeAliases (spaceOf full) members)
    modify fun defined => full :: defined
    return (full, aliases)
  | _ => reject (.unnamed type)

/-! ## Types without parts -/

/-- The members of a primitive type that are kept. -/
def attributes (members : List (String × Json)) : List (String × Json) :=
  members.filter fun m => m.1 != "type" && m.1 != "doc"

/-- The form of an object with a primitive type. -/
def primitiveForm (name : String) (members : List (String × Json)) : Form :=
  match attributes members with
  | [] => .name name
  | extras => .annotated name extras

/-- The form of a value without parts in type position. -/
def normalizeWord (space : String) : Json → Normalizing Form
  | .str name => resolve name space
  | v => reject (.unexpectedElement v)

/-- The form of an object whose type is not one of the constructors. -/
def normalizeOther (space : String) (type : Json) (members : List (String × Json)) :
    Normalizing Form :=
  match type with
  | .str name =>
    if isPrimitive name then pure (primitiveForm name members) else resolve name space
  | type => if type.isKey then normalizeWord space type else breakOff .wrongKind

/-- The form of an enum. -/
def normalizeEnum (space : String) (type : Json) (members : List (String × Json)) :
    Normalizing Form := do
  let (full, aliases) ← introduce space type members
  match Json.lookup "symbols" members with
  | none => breakOff (.missingKey "symbols")
  | some symbols =>
    let items ← lift symbols.elements
    if !items.all Json.isKey then breakOff .wrongKind
    if !Json.allDistinct items then reject (.repeatedSymbols full)
    return .enumeration full aliases items (Json.lookup "default" members)

/-- The members of a fixed type that are kept besides its size, in a fixed order. -/
def fixedAttributes (members : List (String × Json)) : List (String × Json) :=
  ["logicalType", "precision", "scale"].filterMap fun key =>
    (Json.lookup key members).map fun v => (key, v)

/-- The form of a fixed type. -/
def normalizeFixed (space : String) (type : Json) (members : List (String × Json)) :
    Normalizing Form := do
  let (full, aliases) ← introduce space type members
  match Json.lookup "size" members with
  | none => breakOff (.missingKey "size")
  | some size => return .fixed full aliases size (fixedAttributes members)

/-! ## Fields -/

/-- The order of a field, if it is there and is not the ascending one. -/
def fieldOrder (members : List (String × Json)) : Option Json :=
  match Json.lookup "order" members with
  | some order => if order.isStr "ascending" then none else some order
  | none => none

/-- The name of a field, which must be new in its record. -/
def fieldName (full : String) (seen : List Json) (members : List (String × Json)) :
    Normalizing Json :=
  match Json.lookup "name" members with
  | none => breakOff (.missingKey "name")
  | some name =>
    if !name.isKey then breakOff .wrongKind
    else if name.isIn seen then reject (.repeatedField full name)
    else pure name

/-! ## Types -/

mutual

/-- The form of a type in a namespace. -/
def normalizeType (space : String) : Json → Normalizing Form
  | .arr [] => reject .emptyUnion
  | .arr branches => do return .union (← normalizeBranches space branches)
  | .obj members =>
    match Json.lookup "type" members with
    | none => reject (.typeRequired (.obj members))
    | some type =>
      match type with
      | .null => reject (.typeRequired (.obj members))
      | .str "record" => do
        let (full, aliases) ← introduce space type members
        let fields ← normalizeFieldsOf full (spaceOf full) members
        return .record false full aliases fields
      | .str "error" => do
        let (full, aliases) ← introduce space type members
        let fields ← normalizeFieldsOf full (spaceOf full) members
        return .record true full aliases fields
      | .str "enum" => normalizeEnum space type members
      | .str "fixed" => normalizeFixed space type members
      | .str "array" => do return .array (← normalizeUnder "items" space members)
      | .str "map" => do return .map (← normalizeUnder "values" space members)
      | type => normalizeOther space type members
  | word => normalizeWord space word

/-- The forms of the branches of a union. -/
def normalizeBranches (space : String) : List Json → Normalizing (List Form)
  | [] => pure []
  | branch :: rest => do
    let first ← normalizeType space branch
    let others ← normalizeBranches space rest
    return first :: others

/-- The form of the type under a key that has to be there. -/
def normalizeUnder (key space : String) : List (String × Json) → Normalizing Form
  | [] => breakOff (.missingKey key)
  | (k, v) :: rest => if k = key then normalizeType space v else normalizeUnder key space rest

/-- The fields of a record, given its members; there must be some. -/
def normalizeFieldsOf (full space : String) :
    List (String × Json) → Normalizing (List (FieldHead × Form))
  | [] => reject (.noFields full)
  | (k, v) :: rest =>
    if k = "fields" then
      match v with
      | .arr [] => reject (.noFields full)
      | .arr fields => normalizeFields full space [] fields
      | v => if v.truthy then breakOff .wrongKind else reject (.noFields full)
    else normalizeFieldsOf full space rest

/-- The fields of a record; `seen` holds the names of the fields before. -/
def normalizeFields (full space : String) (seen : List Json) :
    List Json → Normalizing (List (FieldHead × Form))
  | [] => pure []
  | .obj members :: rest => do
    let name ← fieldName full seen members
    let type ← normalizeUnder "type" space members
    let aliases ← lift (fieldAliases members)
    let head : FieldHead := ⟨name, Json.lookup "default" members, aliases, fieldOrder members⟩
    let others ← normalizeFields full space (name :: seen) rest
    return (head, type) :: others
  | _ :: _ => breakOff .wrongKind

end

/-- The canonical form of a schema. -/
def normalize (v : Json) : Except Refusal Form := (normalizeType "" v).run' []

end AvroRegistry.Schema
