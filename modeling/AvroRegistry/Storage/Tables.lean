import AvroRegistry.Fault
import AvroRegistry.Storage.Cell

/-!
# Tables

The three tables that a registry keeps in its file: schemas by id, versions by scope and number,
and compatibility modes by key. They are finite lists of rows with the keys and the required
columns of their declarations; everything that violates one of these is a `TableTrouble` and leaves
the tables as they were. An integer that does not fit into a cell breaks down before anything is
looked at.

Rows are inserted as drafts of any values, which are bound to cells first. The texts of a row are
kept as texts and its numbers as far as they are numbers. Only the id of a schema may be missing,
and is then one more than the largest id.
-/

namespace AvroRegistry

/-! ## Rows -/

/-- A row of the schemas table. -/
structure SchemaRow where
  id : Int
  fingerprint : String
  canonical : String
  raw : String
  deriving DecidableEq, Repr

/-- A row of the versions table. -/
structure VersionRow where
  scope : Scope
  number : Cell
  schemaId : Cell
  deleted : Bool
  deriving DecidableEq

/-- A row of the modes table. One row may have no key. -/
structure ConfigRow where
  key : Option String
  mode : String
  deriving DecidableEq, Repr

/-- A schema row to be inserted. -/
structure SchemaDraft where
  id : Json
  fingerprint : Json
  canonical : Json
  raw : Json
  deriving DecidableEq

/-- A version row to be inserted. -/
structure VersionDraft where
  scope : Scope
  number : Json
  schemaId : Json
  deleted : Bool
  deriving DecidableEq

/-- The draft of a stored schema. -/
def StoredSchema.draft (s : StoredSchema) : SchemaDraft :=
  ⟨.int s.id, s.fingerprint, s.canonical, s.raw⟩

/-- The schema that a row holds. -/
def SchemaRow.schema (r : SchemaRow) : StoredSchema :=
  ⟨r.id, .str r.fingerprint, .str r.canonical, .str r.raw⟩

/-- The draft of a version. -/
def Version.draft (v : Version) : VersionDraft := ⟨v.scope, .int v.number, v.schemaId, v.deleted⟩

/-- The three tables. -/
structure Tables where
  schemas : List SchemaRow := []
  versions : List VersionRow := []
  config : List ConfigRow := []
  deriving DecidableEq

/-- The text of a column that needs one. -/
def requireText (column : String) (c : Cell) : Except TableFailure String :=
  match c.asText? with
  | some s => .ok s
  | none => .error (.trouble (.missingValue column))

/-- What a numeric column that needs a value holds of a cell. -/
def requireNumber (column : String) (c : Cell) : Except TableFailure Cell :=
  match c.asNumber with
  | .empty => .error (.trouble (.missingValue column))
  | c => .ok c

namespace Tables

/-! ## Schemas -/

/-- The id that a schema without one gets. -/
def nextId : List SchemaRow → Int
  | [] => 1
  | s :: rest => rest.foldl (fun m r => max m r.id) s.id + 1

/-- The id that a cell gives to a schema. -/
def idOf (t : Tables) (c : Cell) : Except TableFailure Int :=
  match c.asNumber with
  | .empty => .ok (nextId t.schemas)
  | .integer n => .ok n
  | _ => .error (.trouble .mismatch)

/-- Inserts a schema row. -/
def insertSchema (t : Tables) (draft : SchemaDraft) : Except TableFailure Tables := do
  let id ← Cell.bind 1 draft.id
  let fingerprint ← Cell.bind 2 draft.fingerprint
  let canonical ← Cell.bind 3 draft.canonical
  let raw ← Cell.bind 4 draft.raw
  let id ← t.idOf id
  let fingerprint ← requireText "schemas.fingerprint" fingerprint
  let canonical ← requireText "schemas.canonical" canonical
  let raw ← requireText "schemas.raw" raw
  if t.schemas.any fun s => s.id == id then
    throw (.trouble (.duplicateKey "schemas.id"))
  if t.schemas.any fun s => s.fingerprint == fingerprint then
    throw (.trouble (.duplicateKey "schemas.fingerprint"))
  return { t with schemas := t.schemas ++ [⟨id, fingerprint, canonical, raw⟩] }

/-- The schema rows in the order of their ids. -/
def schemasById (t : Tables) : List SchemaRow :=
  t.schemas.mergeSort fun s s' => decide (s.id ≤ s'.id)

/-! ## Versions -/

/-- Whether a row is the one of a scope and a number. -/
def isRowOf (scope : Scope) (number : Cell) (r : VersionRow) : Bool :=
  r.scope.render == scope.render && r.number.same number

/-- Inserts a version row. -/
def insertVersion (t : Tables) (draft : VersionDraft) : Except TableFailure Tables := do
  let number ← Cell.bind 4 draft.number
  let schemaId ← Cell.bind 5 draft.schemaId
  let number ← requireNumber "subject_versions.version" number
  let schemaId ← requireNumber "subject_versions.schema_id" schemaId
  if t.versions.any (isRowOf draft.scope number) then
    throw (.trouble (.duplicateKey "subject_versions.scope_key, subject_versions.version"))
  return { t with versions := t.versions ++ [⟨draft.scope, number, schemaId, draft.deleted⟩] }

/-- The rows with the one of a scope and a number marked as deleted, if it is there. -/
def markRow (scope : Scope) (number : Cell) (rows : List VersionRow) : List VersionRow :=
  rows.map fun r => if isRowOf scope number r = true then { r with deleted := true } else r

/-- Marks the row of a scope and a number as deleted, if there is one. -/
def markDeleted (t : Tables) (scope : Scope) (number : Json) : Except TableFailure Tables := do
  let number ← Cell.bind 2 number
  return { t with versions := markRow scope number.asNumber t.versions }

/-- Whether a version row comes before another one or in its place: by the written scope, then by
number. -/
def rowLe (r r' : VersionRow) : Bool :=
  decide (r.scope.render < r'.scope.render) ||
    (r.scope.render == r'.scope.render && !r'.number.less r.number)

/-- The version rows in the order of scopes and numbers. -/
def versionsInOrder (t : Tables) : List VersionRow := t.versions.mergeSort rowLe

/-! ## Modes -/

/-- Sets the mode of a key; a new key goes to the end. -/
def setMode (key : Option String) (mode : String) : List ConfigRow → List ConfigRow
  | [] => [⟨key, mode⟩]
  | r :: rest => if r.key = key then ⟨key, mode⟩ :: rest else r :: setMode key mode rest

/-- Inserts or updates a mode row. -/
def upsertConfig (t : Tables) (key mode : Json) : Except TableFailure Tables := do
  let key ← Cell.bind 1 key
  let mode ← Cell.bind 2 mode
  let mode ← requireText "compat_config.compatibility" mode
  return { t with config := setMode key.asText? mode t.config }

/-- Removes the row of a key, if there is one. A missing key is never found. -/
def deleteConfig (t : Tables) (key : Json) : Except TableFailure Tables := do
  match (← Cell.bind 1 key).asText? with
  | some k => return { t with config := t.config.filter fun r => r.key != some k }
  | none => return t

end Tables

end AvroRegistry
