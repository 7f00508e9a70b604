import AvroRegistry.Compatibility.Violation
import AvroRegistry.Json.Access
import AvroRegistry.Schema.Vocabulary

/-!
# Schema resolution

`checkReaderWriter reader writer` lists what keeps data written with `writer` from being read with
`reader`; an empty list means that it can be read. The rules are those of the schema language:

* a union of the writer is read if every branch is, and by a union of the reader if some branch
  reads it;
* primitive types are read as themselves or promoted;
* named types must have the same unqualified name or an alias for it; fixed sizes must agree, enum
  symbols must be known to the reader or have a default to fall back on;
* a field of the reader is looked up in the writer by its name and then by its aliases; a field
  found on one side only needs a default there.

Both arguments should be values of canonical forms. They need not be: on any other value the check
either finds an answer or breaks down, as each step says.

A pair of records is checked once along each way down, which is what makes recursive types finite.
The pairs already met are carried along; a branch of a reader union that fails puts them back as
they were, because what it met was met under an assumption that did not hold. `check` counts its
nesting down from `fuel`, and `budget` is enough fuel for every pair of values.
-/

namespace AvroRegistry.Compatibility

/-! ## Names -/

/-- The named types of a schema by full name; the first definition of a name counts. -/
abbrev Names : Type := List (String × Json)

/-- A step of collecting the named types of a schema. -/
abbrev Collecting : Type := StateT Names (Except Breakdown) Unit

/-- Ends collecting with a breakdown. -/
def stopCollecting (b : Breakdown) : Collecting := fun _ => .error b

/-- Adds a definition under its name, unless the name is there. A name that is no text is never
looked up, but it must be one that could be. -/
def addName (name definition : Json) : Collecting := fun names =>
  match name with
  | .str n =>
    .ok ((), if (Json.lookup n names).isSome then names else names ++ [(n, definition)])
  | name => (name.requireKey).map fun _ => ((), names)

/-- Whether the type of an object is the kind of a named type. -/
def isNamedType : Option Json → Except Breakdown Bool
  | none => .ok false
  | some (.str kind) => .ok (Schema.isNamedKind kind)
  | some kind => (kind.requireKey).map fun _ => false

mutual

/-- Collects the named types of a schema. -/
def collect : Json → Collecting
  | .arr branches => collectBranches branches
  | .obj members =>
    match isNamedType (Json.lookup "type" members) with
    | .error b => stopCollecting b
    | .ok true =>
      match Json.lookup "name" members with
      | none => stopCollecting (.missingKey "name")
      | some name => do
        addName name (.obj members)
        collectFieldsOf members
    | .ok false =>
      match Json.lookup "type" members with
      | some (.str "array") => collectUnder "items" members
      | some (.str "map") => collectUnder "values" members
      | _ => pure ()
  | _ => pure ()

/-- Collects the named types of the branches of a union. -/
def collectBranches : List Json → Collecting
  | [] => pure ()
  | branch :: rest => do
    collect branch
    collectBranches rest

/-- Collects the named types of the type under a key that has to be there. -/
def collectUnder (key : String) : List (String × Json) → Collecting
  | [] => stopCollecting (.missingKey key)
  | (k, v) :: rest => if k = key then collect v else collectUnder key rest

/-- Collects the named types of the fields of a named type, given its members. -/
def collectFieldsOf : List (String × Json) → Collecting
  | [] => pure ()
  | (k, v) :: rest =>
    if k = "fields" then
      match v with
      | .arr fields => collectFields fields
      | v =>
        match v.elements with
        | .ok [] => pure ()
        | _ => stopCollecting .wrongKind
    else collectFieldsOf rest

/-- Collects the named types of fields. -/
def collectFields : List Json → Collecting
  | [] => pure ()
  | .obj members :: rest => do
    collectUnder "type" members
    collectFields rest
  | _ :: _ => stopCollecting .wrongKind

end

/-- The named types of a schema. -/
def namesOf (schema : Json) : Except Breakdown Names :=
  ((collect schema).run []).map (·.2)

/-- The definition that a name in type position stands for; anything else stands for itself. -/
def resolveIn (names : Names) : Json → Json
  | .str name =>
    if Schema.isPrimitive name then .str name else (Json.lookup name names).getD (.str name)
  | node => node

/-! ## Kinds of types -/

/-- The kind of a type: `union` for an array, the `type` of an object, and a word itself. Errors
count as records. -/
def kindOf : Json → Except Breakdown Json
  | .arr _ => .ok (.str "union")
  | .obj members =>
    match Json.lookup "type" members with
    | none => .error (.missingKey "type")
    | some kind => .ok (if kind.isStr "error" then .str "record" else kind)
  | node => .ok node

/-- A type in a message: its kind, and its name if it has one. -/
def describe (node : Json) : Except Breakdown String :=
  match kindOf node with
  | .error b => .error b
  | .ok kind =>
    match node.get? "name" with
    | some name => .ok (kind.display ++ " " ++ name.display)
    | none => .ok kind.display

/-- The promotions: a value written as the first type can be read as the second. -/
def promotions : List (String × String) :=
  [("int", "long"), ("int", "float"), ("int", "double"), ("long", "float"), ("long", "double"),
    ("float", "double"), ("string", "bytes"), ("bytes", "string")]

/-- Whether a primitive type is promoted to another one. -/
def isPromoted (writer reader : Json) : Bool :=
  match writer, reader with
  | .str w, .str r => promotions.contains (w, r)
  | _, _ => false

/-- Whether a kind is that of a primitive type. -/
def isPrimitiveKind : Json → Except Breakdown Bool
  | .str kind => .ok (Schema.isPrimitive kind)
  | kind => (kind.requireKey).map fun _ => false

/-! ## Names of types -/

/-- A name without its namespace, of a value that should be a text. -/
def unqualifiedName : Json → Except Breakdown String
  | .str full => .ok (Schema.unqualified full)
  | _ => .error .noAttribute

/-- The names of a list without their namespaces. -/
def unqualifiedNames : List Json → Except Breakdown (List String)
  | [] => .ok []
  | name :: rest =>
    match unqualifiedName name with
    | .error b => .error b
    | .ok first => (unqualifiedNames rest).map (first :: ·)

/-- Whether one of the reader's aliases names the writer's type, in full or without namespace. -/
def aliasNames (writerName : Json) (short : String) (aliases : Json) : Except Breakdown Bool :=
  match writerName.foundIn aliases with
  | .error b => .error b
  | .ok true => .ok true
  | .ok false =>
    match aliases.elements with
    | .error b => .error b
    | .ok items => (unqualifiedNames items).map (·.contains short)

/-- Whether two named types may be matched: their unqualified names agree, or an alias of the
reader names the writer. -/
def namesMatch (reader writer : Json) : Except Breakdown Bool := do
  let readerName ← reader.item "name"
  let writerName ← writer.item "name"
  let readerShort ← unqualifiedName readerName
  let writerShort ← unqualifiedName writerName
  if readerShort = writerShort then return true
  aliasNames writerName writerShort ((reader.get? "aliases").getD (.arr []))

/-- The violation of two named types that may not be matched. -/
def nameViolation (reader writer : Json) (path : String) : Violation :=
  ⟨.nameMismatch ((writer.get? "name").getD .null) ((reader.get? "name").getD .null),
    path ++ "/name", none, none⟩

/-! ## Enums and fixed types -/

/-- The symbols of a list that are not among the known ones. -/
def symbolsOutside (known : List Json) (symbols : List Json) : Except Breakdown (List Json) :=
  if symbols.all Json.isKey then .ok (symbols.filter fun s => !s.isIn known)
  else .error .wrongKind

/-- The symbols of an enum. -/
def symbolsOf (enumeration : Json) : Except Breakdown (List Json) :=
  (enumeration.item "symbols").bind Json.elements

/-- What keeps an enum from reading another one with a matching name. -/
def checkEnum (reader writer : Json) (path : String) : Except Breakdown (List Violation) := do
  let known ← symbolsOf reader
  if !known.all Json.isKey then throw .wrongKind
  let written ← symbolsOf writer
  let missing ← symbolsOutside known written
  if missing.isEmpty || (reader.get? "default").isSome then return []
  return [⟨.missingEnumSymbols ((reader.get? "name").getD .null) missing, path ++ "/symbols",
    none, none⟩]

/-- What keeps a fixed type from reading another one with a matching name. -/
def checkFixed (reader writer : Json) (path : String) : Except Breakdown (List Violation) := do
  let readerSize ← reader.item "size"
  let writerSize ← writer.item "size"
  if readerSize.equal writerSize then return []
  return [⟨.fixedSizeMismatch writerSize readerSize, path ++ "/size", none, none⟩]

/-! ## Fields -/

/-- The fields of a writer record by name. Of two fields with the same name the later one counts,
in the place and under the name of the earlier one. -/
abbrev FieldTable : Type := List (Json × Json)

/-- Sets the field under a name. -/
def setField (name field : Json) : FieldTable → FieldTable
  | [] => [(name, field)]
  | (n, f) :: rest =>
    if n.same name then (n, field) :: rest else (n, f) :: setField name field rest

/-- The field under a name. -/
def findField (name : Json) (table : FieldTable) : Option Json :=
  (table.find? fun entry => entry.1.same name).map (·.2)

/-- The table of the fields of a record. -/
def fieldTable (table : FieldTable) : List Json → Except Breakdown FieldTable
  | [] => .ok table
  | field :: rest =>
    match field.item "name" with
    | .error b => .error b
    | .ok name => if name.isKey then fieldTable (setField name field table) rest
      else .error .wrongKind

/-- The first alias that is a field of the writer. -/
def findByAlias (table : FieldTable) : List Json → Except Breakdown (Option Json)
  | [] => .ok none
  | name :: rest =>
    if !name.isKey then .error .wrongKind
    else match findField name table with
      | some field => .ok (some field)
      | none => findByAlias table rest

/-- The field of the writer that a field of the reader reads: the one of its name, otherwise the
one of its first alias that is there. -/
def counterpart (table : FieldTable) (field : Json) : Except Breakdown (Option Json) := do
  let name ← field.item "name"
  name.requireKey
  match findField name table with
  | some found => return some found
  | none => findByAlias table (← ((field.get? "aliases").getD (.arr [])).elements)

/-- The fields of the writer that were not matched and have no default. -/
def removedFields (path : String) (matched : List Json) (table : FieldTable) : List Violation :=
  (table.filter fun entry =>
    !entry.1.isIn matched && (entry.2.get? "default").isNone).map fun entry =>
      ⟨.writerFieldRemoved entry.1, path ++ "/fields/" ++ entry.1.display, none, none⟩

/-! ## The check -/

/-- The pairs of record names, reader first, that have been met. -/
abbrev Met : Type := List (String × String)

/-- A step of the check: it may meet further pairs. -/
abbrev Checking (α : Type) : Type := StateT Met (Except Breakdown) α

/-- A step that meets no pairs. -/
def pureStep {α : Type} (result : Except Breakdown α) : Checking α := fun met =>
  match result with
  | .error b => .error b
  | .ok a => .ok (a, met)

/-- The violations of all branches of a writer union, given the check of one. -/
def checkAll (step : Json → Checking (List Violation)) : List Json → Checking (List Violation)
  | [] => pure []
  | branch :: rest => do
    let first ← step branch
    let others ← checkAll step rest
    return first ++ others

/-- Whether some branch of a reader union reads the writer, given the check of one. A branch that
does not leaves no pairs behind. -/
def checkSome (step : Json → Checking (List Violation)) : List Json → Checking Bool
  | [] => pure false
  | branch :: rest => do
    let before ← get
    let violations ← step branch
    if violations.isEmpty then return true
    set before
    checkSome step rest

/-- The violations of the fields of a reader record, given the check of a pair of types, and the
names of the writer fields they read. -/
def checkFields (step : Json → Json → String → Checking (List Violation)) (path : String)
    (table : FieldTable) : List Json → Checking (List Violation × List Json)
  | [] => pure ([], [])
  | field :: rest => do
    let name ← pureStep (field.item "name")
    let place := path ++ "/fields/" ++ name.display
    match ← pureStep (counterpart table field) with
    | some found => do
      let matched ← pureStep (found.item "name")
      let readerType ← pureStep (field.item "type")
      let writerType ← pureStep (found.item "type")
      let first ← step readerType writerType (place ++ "/type")
      let (others, names) ← checkFields step path table rest
      return (first ++ others, matched :: names)
    | none => do
      let (others, names) ← checkFields step path table rest
      if (field.get? "default").isSome then return (others, names)
      return (⟨.readerFieldMissingDefault name, place, none, none⟩ :: others, names)

/-- What keeps a record from reading another one with a matching name, given the check of a pair of
types. A pair that has been met is not looked at again. -/
def checkRecord (step : Json → Json → String → Checking (List Violation)) (reader writer : Json)
    (path : String) : Checking (List Violation) := do
  let met ← get
  let pair := (((reader.get? "name").bind Json.asStr?).getD "",
    ((writer.get? "name").bind Json.asStr?).getD "")
  if met.contains pair then return []
  set (pair :: met)
  let writerFields ← pureStep ((writer.item "fields").bind Json.elements)
  let table ← pureStep (fieldTable [] writerFields)
  let readerFields ← pureStep ((reader.item "fields").bind Json.elements)
  let (violations, matched) ← checkFields step path table readerFields
  return violations ++ removedFields path matched table

/-- A check of two named types that begins with their names. -/
def checkNamed (reader writer : Json) (path : String) (rest : Checking (List Violation)) :
    Checking (List Violation) := do
  if ← pureStep (namesMatch reader writer) then rest
  else return [nameViolation reader writer path]

/-- The violation of two types of which neither is a union and no rule lets one be read as the
other, unless there is a promotion. -/
def checkPromotion (readerKind writerKind reader writer : Json) (path : String) :
    Except Breakdown (List Violation) := do
  writerKind.requireKey
  readerKind.requireKey
  if isPromoted writerKind readerKind then return []
  return [⟨.typeMismatch (← describe reader) (← describe writer), path, none, none⟩]

/-- What keeps one type from being read as another, both already looked up, given the check of a
pair of types. -/
def checkTypes (step : Json → Json → String → Checking (List Violation)) (reader writer : Json)
    (path : String) : Checking (List Violation) := do
  let readerKind ← pureStep (kindOf reader)
  let writerKind ← pureStep (kindOf writer)
  if writerKind.isStr "union" then
    checkAll (fun branch => step reader branch path) (← pureStep writer.elements)
  else if readerKind.isStr "union" then
    if ← checkSome (fun branch => step branch writer path) (← pureStep reader.elements) then
      return []
    return [⟨.missingUnionBranch (← pureStep (describe writer)), path, none, none⟩]
  else if readerKind.equal writerKind then
    if ← pureStep (isPrimitiveKind readerKind) then return []
    match readerKind with
    | .str "array" => do
      let readerItems ← pureStep (reader.item "items")
      let writerItems ← pureStep (writer.item "items")
      step readerItems writerItems (path ++ "/items")
    | .str "map" => do
      let readerValues ← pureStep (reader.item "values")
      let writerValues ← pureStep (writer.item "values")
      step readerValues writerValues (path ++ "/values")
    | .str "record" => checkNamed reader writer path (checkRecord step reader writer path)
    | .str "enum" => checkNamed reader writer path (pureStep (checkEnum reader writer path))
    | .str "fixed" => checkNamed reader writer path (pureStep (checkFixed reader writer path))
    | _ => pureStep (checkPromotion readerKind writerKind reader writer path)
  else pureStep (checkPromotion readerKind writerKind reader writer path)

/-- What keeps `reader` from reading `writer`, each with the named types of its own schema. -/
def check (readerNames writerNames : Names) :
    Nat → Json → Json → String → Checking (List Violation)
  | 0, _, _, _ => pureStep (.error .exhausted)
  | fuel + 1, reader, writer, path =>
    checkTypes (check readerNames writerNames fuel) (resolveIn readerNames reader)
      (resolveIn writerNames writer) path

/-! ## Fuel -/

mutual

/-- How many calls of the check going down through a value can take: one for every value in it, and
two for a text or a key, which a value that is no schema may make the check go through. -/
def weight : Json → Nat
  | .str _ => 2
  | .arr items => 1 + weightItems items
  | .obj members => 1 + weightMembers members
  | _ => 1

/-- The weight of a list of values. -/
def weightItems : List Json → Nat
  | [] => 0
  | v :: rest => weight v + weightItems rest

/-- The weight of a list of members. -/
def weightMembers : List (String × Json) → Nat
  | [] => 0
  | (_, v) :: rest => 2 + weight v + weightMembers rest

end

/-- Enough fuel for a check: between two new pairs of records the check only goes down, and there
are no more pairs than named types on each side. -/
def budget (readerNames writerNames : Names) (reader writer : Json) : Nat :=
  (readerNames.length * writerNames.length + 1) * (weight reader + weight writer)

/-- What keeps data written with `writer` from being read with `reader`. -/
def checkReaderWriter (reader writer : Json) : Except Breakdown (List Violation) := do
  let readerNames ← namesOf reader
  let writerNames ← namesOf writer
  let fuel := budget readerNames writerNames reader writer
  let (violations, _) ← (check readerNames writerNames fuel reader writer "").run []
  return violations

end AvroRegistry.Compatibility
