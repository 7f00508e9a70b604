import AvroRegistry.Proofs.Json.Reordered
import AvroRegistry.Proofs.Schema.Normalized

/-!
# What a schema says before names are looked up

`outline` goes through a schema as normalizing does, but it keeps no names: a reference stands for
the full name it has in the namespace around it, whether or not that name is defined. It refuses
nothing and gives an empty part where one is missing, so every value has an outline, and the outline
of a type depends on the type and its namespace alone.

An outline reads a member by its key only, and the attributes of a primitive type in the order of
their keys. So two objects have the same outline if what is read of them is the same: of a named
type that is its full name, its aliases and what its kind has besides (`outline_named`).
-/

namespace AvroRegistry.Schema

open Json (lookup)

/-! ## Names -/

/-- The full name that a word means in type position, as long as that name is defined. -/
def meaning (name space : String) : String := if isPrimitive name then name else qualify name space

/-- The full name of a named type, empty if it has no name. -/
def fullName (space : String) (members : List (String × Json)) : String :=
  match lookup "name" members with
  | some (.str name) => qualify name (enclosing space members)
  | _ => ""

/-- The sorted aliases of a named type, none if they cannot be sorted. -/
def fullAliases (space : String) (members : List (String × Json)) : List Json :=
  (typeAliases (spaceOf (fullName space members)) members).toOption.getD []

/-! ## Outlines -/

/-- The outline of an object with a primitive type: its attributes are in the order of their
keys. -/
def outlinePrimitive (name : String) (members : List (String × Json)) : Form :=
  match Json.arrange Json.compact (attributes members) with
  | [] => .name name
  | extras => .annotated name extras

/-- The outline of an enum. -/
def outlineEnum (space : String) (members : List (String × Json)) : Form :=
  .enumeration (fullName space members) (fullAliases space members)
    (((lookup "symbols" members).getD .null).elements.toOption.getD []) (lookup "default" members)

/-- The outline of a fixed type. -/
def outlineFixed (space : String) (members : List (String × Json)) : Form :=
  .fixed (fullName space members) (fullAliases space members)
    ((lookup "size" members).getD .null) (fixedAttributes members)

/-- The outline of an object whose type is not one of the constructors. -/
def outlineOther (space : String) (members : List (String × Json)) : Json → Form
  | .str name =>
    if isPrimitive name then outlinePrimitive name members else .name (meaning name space)
  | _ => .name ""

/-- The outline of a field apart from its type. -/
def outlineHead (members : List (String × Json)) : FieldHead :=
  headOf ((lookup "name" members).getD .null) ((fieldAliases members).toOption.getD []) members

mutual

/-- The outline of a type in a namespace. -/
def outline (space : String) : Json → Form
  | .arr branches => .union (outlineBranches space branches)
  | .obj members =>
    match lookup "type" members with
    | none => .name ""
    | some type =>
      match type with
      | .str "record" =>
        .record false (fullName space members) (fullAliases space members)
          (outlineFieldsOf (spaceOf (fullName space members)) members)
      | .str "error" =>
        .record true (fullName space members) (fullAliases space members)
          (outlineFieldsOf (spaceOf (fullName space members)) members)
      | .str "enum" => outlineEnum space members
      | .str "fixed" => outlineFixed space members
      | .str "array" => .array (outlineUnder "items" space members)
      | .str "map" => .map (outlineUnder "values" space members)
      | type => outlineOther space members type
  | .str name => .name (meaning name space)
  | _ => .name ""

/-- The outlines of the branches of a union. -/
def outlineBranches (space : String) : List Json → List Form
  | [] => []
  | branch :: rest => outline space branch :: outlineBranches space rest

/-- The outline of the type under a key. -/
def outlineUnder (key space : String) : List (String × Json) → Form
  | [] => .name ""
  | (k, v) :: rest => if k = key then outline space v else outlineUnder key space rest

/-- The outlines of the fields of a record, given its members. -/
def outlineFieldsOf (space : String) : List (String × Json) → List (FieldHead × Form)
  | [] => []
  | (k, v) :: rest =>
    if k = "fields" then
      match v with
      | .arr fields => outlineFields space fields
      | _ => []
    else outlineFieldsOf space rest

/-- The outlines of the fields of a record. -/
def outlineFields (space : String) : List Json → List (FieldHead × Form)
  | [] => []
  | .obj members :: rest =>
    (outlineHead members, outlineUnder "type" space members) :: outlineFields space rest
  | _ :: rest => outlineFields space rest

end

/-- The outlines of the fields in what is found under `fields`. -/
def outlineListed (space : String) : Option Json → List (FieldHead × Form)
  | some (.arr fields) => outlineFields space fields
  | _ => []

/-! ## Outlines, shape by shape -/

section

variable {space : String} {members : List (String × Json)}

theorem outlineBranches_eq_map (branches : List Json) :
    outlineBranches space branches = branches.map (outline space) := by
  induction branches with
  | nil => rw [outlineBranches, List.map_nil]
  | cons branch rest ih => rw [outlineBranches, ih, List.map_cons]

theorem outlineUnder_eq (key : String) (members : List (String × Json)) :
    outlineUnder key space members =
      ((lookup key members).map (outline space)).getD (.name "") := by
  induction members with
  | nil => simp [outlineUnder]
  | cons m rest ih =>
    obtain ⟨k, v⟩ := m
    rw [outlineUnder, Json.lookup_cons, ih]
    split <;> rfl

theorem outlineFieldsOf_eq (members : List (String × Json)) :
    outlineFieldsOf space members = outlineListed space (lookup "fields" members) := by
  induction members with
  | nil => simp [outlineFieldsOf, outlineListed]
  | cons m rest ih =>
    obtain ⟨k, v⟩ := m
    rw [outlineFieldsOf.eq_def, Json.lookup_cons]
    dsimp only
    rw [ih]
    split
    · cases v <;> rfl
    · rfl

theorem outlineFields_append (front back : List Json) :
    outlineFields space (front ++ back) =
      outlineFields space front ++ outlineFields space back := by
  induction front with
  | nil => simp [outlineFields]
  | cons item rest ih => cases item <;> simp [outlineFields, ih]

theorem outline_obj (members : List (String × Json)) :
    outline space (.obj members) =
      match lookup "type" members with
      | none => .name ""
      | some type =>
        match type with
        | .str "record" =>
          .record false (fullName space members) (fullAliases space members)
            (outlineFieldsOf (spaceOf (fullName space members)) members)
        | .str "error" =>
          .record true (fullName space members) (fullAliases space members)
            (outlineFieldsOf (spaceOf (fullName space members)) members)
        | .str "enum" => outlineEnum space members
        | .str "fixed" => outlineFixed space members
        | .str "array" => .array (outlineUnder "items" space members)
        | .str "map" => .map (outlineUnder "values" space members)
        | type => outlineOther space members type := by
  unfold outline
  rfl

theorem outline_str (name : String) : outline space (.str name) = .name (meaning name space) := by
  unfold outline
  rfl

theorem outline_arr (branches : List Json) :
    outline space (.arr branches) = .union (branches.map (outline space)) := by
  rw [outline, outlineBranches_eq_map]

theorem outline_untyped (h : lookup "type" members = none) :
    outline space (.obj members) = .name "" := by
  rw [outline_obj, h]

theorem outline_record {isError : Bool}
    (h : lookup "type" members = some (.str (recordKind isError))) :
    outline space (.obj members) =
      .record isError (fullName space members) (fullAliases space members)
        (outlineListed (spaceOf (fullName space members)) (lookup "fields" members)) := by
  rw [outline_obj, h, ← outlineFieldsOf_eq]
  cases isError <;> rfl

theorem outline_enumeration (h : lookup "type" members = some (.str "enum")) :
    outline space (.obj members) = outlineEnum space members := by
  rw [outline_obj, h]
  rfl

theorem outline_fixed (h : lookup "type" members = some (.str "fixed")) :
    outline space (.obj members) = outlineFixed space members := by
  rw [outline_obj, h]
  rfl

theorem outline_container {container : Container}
    (h : lookup "type" members = some (.str container.word)) :
    outline space (.obj members) =
      container.form (((lookup container.key members).map (outline space)).getD (.name "")) := by
  rw [outline_obj, h, ← outlineUnder_eq]
  cases container <;> rfl

theorem outline_other {type : Json} (h : lookup "type" members = some type)
    (plain : isConstructor type = false) :
    outline space (.obj members) = outlineOther space members type := by
  rw [outline_obj, h]
  cases type with
  | str word =>
    obtain ⟨h₁, h₂, h₃, h₄, h₅, h₆⟩ := ne_of_plain plain
    simp [h₁, h₂, h₃, h₄, h₅, h₆]
  | _ => rfl

end

/-! ## What is read of an object -/

/-- The keys of what a kind of type has besides its name. -/
def partKeys (kind : String) : List String :=
  if kind = "enum" then ["symbols", "default"]
  else if kind = "fixed" then ["size", "logicalType", "precision", "scale"]
  else if kind = "array" then ["items"]
  else if kind = "map" then ["values"]
  else ["fields"]

/-- The keys that are read of a type of a kind. -/
def readKeys (kind : String) : List String :=
  if isNamedKind kind then ["type", "name", "namespace", "aliases"] ++ partKeys kind
  else "type" :: partKeys kind

/-- The keys that are read of a field. -/
def fieldKeys : List String := ["name", "type", "default", "aliases", "order"]

section

variable {space : String} {members members' : List (String × Json)}

theorem fullName_congr (space : String) (name : lookup "name" members = lookup "name" members')
    (namespace_ : lookup "namespace" members = lookup "namespace" members') :
    fullName space members = fullName space members' := by
  unfold fullName enclosing
  rw [name, namespace_]

theorem typeAliases_congr (aliases : lookup "aliases" members = lookup "aliases" members') :
    typeAliases space members = typeAliases space members' := by
  unfold typeAliases
  rw [aliases]

theorem fullAliases_congr (full : fullName space members = fullName space members')
    (aliases : lookup "aliases" members = lookup "aliases" members') :
    fullAliases space members = fullAliases space members' := by
  unfold fullAliases
  rw [full, typeAliases_congr aliases]

theorem fixedAttributes_congr
    (same : ∀ key ∈ Form.fixedKeys, lookup key members = lookup key members') :
    fixedAttributes members = fixedAttributes members' :=
  List.filterMap_congr fun key mem => by rw [same key mem]

theorem outlineHead_congr (name : lookup "name" members = lookup "name" members')
    (default : lookup "default" members = lookup "default" members')
    (aliases : fieldAliases members = fieldAliases members')
    (order : fieldOrder members = fieldOrder members') :
    outlineHead members = outlineHead members' := by
  unfold outlineHead headOf
  rw [name, default, aliases, order]

/-- Of a named type that is its full name, its aliases and what its kind has besides. -/
theorem outline_named {kind : String} (isNamed : isNamedKind kind = true)
    (typed : lookup "type" members = some (.str kind))
    (typed' : lookup "type" members' = some (.str kind))
    (full : fullName space members = fullName space members')
    (aliases : fullAliases space members = fullAliases space members')
    (parts : ∀ key ∈ partKeys kind, lookup key members = lookup key members') :
    outline space (.obj members) = outline space (.obj members') := by
  have record : ∀ isError, kind = recordKind isError →
      outline space (.obj members) = outline space (.obj members') := by
    rintro isError rfl
    have fields := parts "fields" (by cases isError <;> simp [partKeys, recordKind])
    rw [outline_record typed, outline_record typed', full, aliases, fields]
  simp only [isNamedKind, namedKinds, List.contains_eq_mem, List.mem_cons, List.not_mem_nil,
    or_false, decide_eq_true_eq] at isNamed
  rcases isNamed with rfl | rfl | rfl | rfl
  · exact record false rfl
  · exact record true rfl
  · rw [outline_enumeration typed, outline_enumeration typed', outlineEnum, outlineEnum, full,
      aliases, parts "symbols" (by simp [partKeys]), parts "default" (by simp [partKeys])]
  · have attributes : fixedAttributes members = fixedAttributes members' :=
      fixedAttributes_congr fun key mem => parts key (List.mem_cons_of_mem _ mem)
    rw [outline_fixed typed, outline_fixed typed', outlineFixed, outlineFixed, full, aliases,
      attributes, parts "size" (by simp [partKeys])]

/-- Two objects of one kind have the same outline if all that is read of them is the same. -/
theorem outline_read {kind : String} (constructor_ : isConstructor (.str kind) = true)
    (typed : lookup "type" members = some (.str kind))
    (same : ∀ key ∈ readKeys kind, lookup key members = lookup key members') :
    outline space (.obj members) = outline space (.obj members') := by
  by_cases isNamed : isNamedKind kind = true
  · rw [readKeys, if_pos isNamed] at same
    have typed' : lookup "type" members' = some (.str kind) := same "type" (by simp) ▸ typed
    have full := fullName_congr space (same "name" (by simp)) (same "namespace" (by simp))
    have aliases := fullAliases_congr full (same "aliases" (by simp))
    exact outline_named isNamed typed typed' full aliases
      fun key mem => same key (List.mem_append_right _ mem)
  · rw [readKeys, if_neg isNamed] at same
    have typed' : lookup "type" members' = some (.str kind) := same "type" (by simp) ▸ typed
    obtain ⟨container, rfl⟩ : ∃ container : Container, kind = container.word := by
      simp only [isConstructor, constructors, isNamedKind, namedKinds, List.contains_eq_mem,
        List.mem_cons, List.not_mem_nil, or_false, decide_eq_true_eq] at constructor_ isNamed
      have parts : kind = "array" ∨ kind = "map" := by tauto
      rcases parts with rfl | rfl
      · exact ⟨.array, rfl⟩
      · exact ⟨.map, rfl⟩
    have part : container.key ∈ partKeys container.word := by cases container <;> decide
    rw [outline_container typed, outline_container typed',
      same container.key (List.mem_cons_of_mem _ part)]

end

end AvroRegistry.Schema
