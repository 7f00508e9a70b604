import AvroRegistry.Json.Access
import AvroRegistry.Storage.Tables

/-!
# The file of a registry

`Storage` is a registry's handle on its file: where the file is, what is there, and whether this
handle has made sure that the tables exist. What is there is a `Volume`: a database with or without
the tables, or whatever keeps a handle from one.

Every operation is a `Step` on the handle. It connects first, and needs the table it works on;
whatever stands in its way becomes an internal fault that names the file and quotes the cause.
-/

namespace AvroRegistry

/-- What stands at the place of a registry's file. -/
inductive Volume where
  /-- Nothing that can be connected to at all. -/
  | unreachable (b : Breakdown)
  /-- Something that cannot be opened, such as a directory. -/
  | closed
  /-- A place whose name is too long for the files that a database needs beside its own. -/
  | cramped
  /-- A file that is no database. -/
  | foreign
  /-- A database that lasts as long as one connection. -/
  | fleeting
  /-- A database, with or without tables. A file that does not exist yet is one without. -/
  | database (tables : Option Tables)

/-- The volume once its tables have been made. -/
def Volume.withTables : Volume → Volume
  | .database tables => .database (some (tables.getD {}))
  | v => v

/-- A handle on the file of a registry. -/
structure Storage where
  path : String
  volume : Volume := .database none
  /-- For how many milliseconds a connection waits for other ones. -/
  patience : Nat := 5000
  prepared : Bool := false

namespace Storage

/-! ## Trouble with the file -/

/-- Why a file does not serve as a database. -/
inductive Trouble where
  | cannotOpen
  | cannotWrite
  | notADatabase
  | noTable (name : String)
  | table (t : TableTrouble)

/-- The class and the words of a trouble with a table. -/
def tableWords : TableTrouble → String × String
  | .unsupported position kind =>
    ("ProgrammingError",
      "Error binding parameter " ++ toString position ++ ": type '" ++ kind ++ "' is not supported")
  | .mismatch => ("IntegrityError", "datatype mismatch")
  | .missingValue column => ("IntegrityError", "NOT NULL constraint failed: " ++ column)
  | .duplicateKey columns => ("IntegrityError", "UNIQUE constraint failed: " ++ columns)

/-- The class and the words of a trouble. -/
def Trouble.words : Trouble → String × String
  | .cannotOpen => ("OperationalError", "unable to open database file")
  | .cannotWrite => ("OperationalError", "unable to open database file")
  | .notADatabase => ("DatabaseError", "file is not a database")
  | .noTable name => ("OperationalError", "no such table: " ++ name)
  | .table t => tableWords t

/-- The fault that a trouble with a file is. -/
def Trouble.fault (path : String) (t : Trouble) : Fault :=
  let (kind, text) := t.words
  let message := match t with
    | .cannotOpen => "Cannot open registry database " ++ path
    | _ => "Registry storage failure on " ++ path ++ ": " ++ text
  .internal (.str message) (some (kind ++ "(" ++ Json.literalText text ++ ")"))

/-- Ends a step with a trouble. -/
def fail {α : Type} (t : Trouble) : Step Storage α := do
  Step.refuse (t.fault (← get).path)

/-! ## Connections -/

/-- Connects to the file: the tables, if there are any. -/
def connect : Step Storage (Option Tables) := do
  match (← get).volume with
  | .unreachable b => Step.collapse b
  | .closed => fail .cannotOpen
  | .cramped => fail .cannotWrite
  | .foreign => fail .notADatabase
  | .fleeting => return none
  | .database tables => return tables

/-- The tables, needed for one of them. -/
def access (table : String) : Step Storage Tables := do
  match ← connect with
  | none => fail (.noTable table)
  | some tables => return tables

/-- Writes the tables that an operation on them gives. -/
def store : Except TableFailure Tables → Step Storage Unit
  | .ok tables => modify fun s => { s with volume := .database (some tables) }
  | .error (.trouble t) => fail (.table t)
  | .error (.breakdown b) => Step.collapse b

/-! ## Operations -/

/-- Makes sure that the tables exist, once for every handle. -/
def prepare : Step Storage Unit := do
  if (← get).prepared then return
  discard connect
  modify fun s => { s with volume := s.volume.withTables, prepared := true }

/-- Adds a schema row. -/
def insertSchema (draft : SchemaDraft) : Step Storage Unit := do
  store ((← access "schemas").insertSchema draft)

/-- The stored schemas by id. -/
def loadSchemas : Step Storage (List StoredSchema) := do
  return (← access "schemas").schemasById.map SchemaRow.schema

/-- Adds a version row. -/
def insertVersion (draft : VersionDraft) : Step Storage Unit := do
  store ((← access "subject_versions").insertVersion draft)

/-- Marks the rows of some numbers, one after the other, until a value is bound to no cell. -/
def markEach (scope : Scope) : List Json → Step Storage Unit
  | [] => pure ()
  | number :: rest => do
    store ((← access "subject_versions").markDeleted scope number)
    markEach scope rest

/-- Marks the versions of a scope with the given numbers as deleted; without numbers the file is
not touched. -/
def markDeleted (scope : Scope) (numbers : List Json) : Step Storage Unit := do
  if numbers.isEmpty then return
  discard (access "subject_versions")
  markEach scope numbers

/-- Marks the versions of a scope with the numbers that going through a value yields. -/
def markDeletedIn (scope : Scope) (numbers : Json) : Step Storage Unit := do
  if !numbers.truthy then return
  match numbers.elements with
  | .ok numbers => markDeleted scope numbers
  | .error b => do
    discard connect
    Step.collapse b

/-- The version rows by scope and number. -/
def loadVersions : Step Storage (List VersionRow) := do
  return (← access "subject_versions").versionsInOrder

/-- Sets the mode of a key. -/
def upsertConfig (key mode : Json) : Step Storage Unit := do
  store ((← access "compat_config").upsertConfig key mode)

/-- Removes the mode of a key. -/
def deleteConfig (key : Json) : Step Storage Unit := do
  store ((← access "compat_config").deleteConfig key)

/-- The mode rows, oldest key first. -/
def loadConfig : Step Storage (List ConfigRow) := do
  return (← access "compat_config").config

/-- The mode rows by key. Several keys cannot be ordered if one of them is missing. -/
def loadConfigSorted : Step Storage (List ConfigRow) := do
  let rows ← loadConfig
  if 1 < rows.length && rows.any (·.key.isNone) then Step.collapse .wrongKind
  return rows.mergeSort fun r r' => decide (r.key.getD "" ≤ r'.key.getD "")

/-- A new handle on the same file. -/
def reopened (s : Storage) : Storage := { s with prepared := false }

end Storage

/-! ## Memory with a file behind it -/

/-- What a store holds in memory, and the file that it writes through to, if it has one. -/
structure Backed (σ : Type) where
  memory : σ
  storage : Option Storage

namespace Backed

/-- Writes to the file, if there is one. -/
def persist {σ : Type} (write : Step Storage Unit) : Step (Backed σ) Unit := fun b =>
  match b.storage with
  | none => (.ok (), b)
  | some s =>
    let (outcome, s') := write.outcome s
    (outcome, { b with storage := some s' })

/-- What the store holds in memory. -/
def inMemory {σ : Type} : Step (Backed σ) σ := fun b => (.ok b.memory, b)

/-- Replaces what the store holds in memory. -/
def remember {σ : Type} (memory : σ) : Step (Backed σ) Unit := fun b =>
  (.ok (), { b with memory := memory })

end Backed

end AvroRegistry
