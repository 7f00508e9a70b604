import AvroRegistry.Schema.Canonical
import AvroRegistry.Storage.Database

/-!
# The store of schemas

Schemas are addressed by content: a schema is stored under its fingerprint once, and gets an id one
above the last one handed out. Nothing is ever removed, so an id keeps its meaning.

`Schemas` is what the store holds in memory. `Schemas.put` writes to the file first and remembers
second, so a file that refuses the row leaves the memory as it was. `Schemas.recover` reads a file
back.
-/

namespace AvroRegistry

/-- The schemas of a registry in the order in which they were stored, and the last id handed out. -/
structure Schemas where
  entries : List StoredSchema := []
  lastId : Int := 0
  deriving DecidableEq

namespace Schemas

/-- How many schemas there are. -/
def size (s : Schemas) : Nat := s.entries.length

/-- The schema with an id. -/
def find? (s : Schemas) (id : Int) : Option StoredSchema := s.entries.find? fun e => e.id == id

/-- The schema with a fingerprint. -/
def withFingerprint? (s : Schemas) (fingerprint : Json) : Option StoredSchema :=
  s.entries.find? fun e => e.fingerprint.same fingerprint

/-- The schemas with one more. -/
def add (s : Schemas) (schema : StoredSchema) : Schemas :=
  ⟨s.entries ++ [schema], max s.lastId schema.id⟩

/-- The schema with an id, which has to be there. -/
def get (s : Schemas) (id : Int) : Except Failure StoredSchema :=
  match s.find? id with
  | some schema => .ok schema
  | none => .error (.fault (.schemaIdNotFound (.int id)))

/-- The schema under a value taken as an id: a number finds a schema whatever its kind, anything
else that may be a key finds none. -/
def lookUp (s : Schemas) (id : Json) : Except Failure StoredSchema :=
  if id.isKey then
    match id.keyInt?.bind s.find? with
    | some schema => .ok schema
    | none => .error (.fault (.schemaIdNotFound id))
  else .error (.breakdown .wrongKind)

/-- The schema under a value taken as a fingerprint, if there is one. -/
def lookUpFingerprint (s : Schemas) (fingerprint : Json) : Except Failure (Option StoredSchema) :=
  if fingerprint.isKey then .ok (s.withFingerprint? fingerprint) else .error (.breakdown .wrongKind)

/-! ## Storing -/

/-- The fingerprint of a canonical text. -/
def fingerprintOf : Json → Except Failure Json
  | .str canonical => .ok (.str (Schema.fingerprint canonical))
  | _ => .error (.breakdown .noAttribute)

/-- The fingerprint to store a schema under: a given one that says something, or else that of the
canonical text. -/
def addressOf (canonical fingerprint : Json) : Except Failure Json :=
  if fingerprint.truthy then .ok fingerprint else fingerprintOf canonical

/-- The result of a computation that can fail, as a step. -/
def settle {α : Type} : Except Failure α → Step (Backed Schemas) α
  | .ok a => pure a
  | .error f => throw f

/-- Stores a schema and gives its id. A schema whose fingerprint is there already keeps its id and
its first raw text. -/
def put (canonical raw fingerprint : Json) : Step (Backed Schemas) Int := do
  let fingerprint ← settle (addressOf canonical fingerprint)
  let s ← Backed.inMemory
  match ← settle (s.lookUpFingerprint fingerprint) with
  | some existing => return existing.id
  | none =>
    let schema : StoredSchema := ⟨s.lastId + 1, fingerprint, canonical, raw⟩
    Backed.persist (Storage.insertSchema schema.draft)
    Backed.remember (s.add schema)
    return schema.id

/-! ## Decoding -/

/-- The canonical text of a stored schema decoded. -/
def formOf (schema : StoredSchema) : Except Failure Json :=
  match schema.canonical with
  | .str text =>
    match Json.decode text with
    | .ok v => .ok v
    | .error b => .error (.breakdown b)
  | _ => .error (.breakdown .wrongKind)

/-! ## Recovery -/

/-- The store of rows read back in order of their ids, added to what was read before. -/
def recoverFrom (s : Schemas) : List StoredSchema → Except Failure Schemas
  | [] => .ok s
  | schema :: rest =>
    match s.withFingerprint? schema.fingerprint with
    | some existing =>
      .error (.fault (.internal
        (.str ("Duplicate fingerprint " ++ schema.fingerprint.display ++ " in schema log (ids " ++
          toString existing.id ++ " and " ++ toString schema.id ++ ")")) none))
    | none => recoverFrom (s.add schema) rest

/-- The store that a file holds. -/
def recover : Step Storage Schemas := do
  Storage.prepare
  match recoverFrom {} (← Storage.loadSchemas) with
  | .ok s => return s
  | .error f => throw f

end Schemas

end AvroRegistry
