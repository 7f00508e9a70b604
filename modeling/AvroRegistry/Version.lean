import AvroRegistry.Json.Order
import AvroRegistry.Scope

/-!
# Schemas and versions as they are stored

A registry stores schemas by id and versions by scope. A version is a numbered pointer from a scope
to a schema; deleting it only marks it.

The stores hand out ids and numbers themselves. What they are given is kept as it is, even where it
is no text or no id: whoever reads it finds out.
-/

namespace AvroRegistry

/-- A stored schema: its id, the fingerprint of its canonical text, that text, and the text as first
submitted. -/
structure StoredSchema where
  id : Int
  fingerprint : Json
  canonical : Json
  raw : Json
  deriving DecidableEq

/-- A version of a scope, which points at the id of a schema. -/
structure Version where
  scope : Scope
  number : Int
  schemaId : Json
  deleted : Bool := false
  deriving DecidableEq

/-- The integer that a value denotes as a key: a truth value and an integral real denote one
too. -/
def Json.keyInt? : Json → Option Int
  | .int n => some n
  | .bool b => some (if b then 1 else 0)
  | .float x => x.toInt?
  | _ => none

/-- A stored schema as it is shown. -/
def StoredSchema.toJson (s : StoredSchema) : Json :=
  .obj [("id", .int s.id), ("fingerprint", s.fingerprint), ("schema", s.raw)]

/-- A stored schema found through a version of a scope. -/
structure SchemaInfo where
  scope : Scope
  number : Int
  schema : StoredSchema
  deriving DecidableEq

/-- What is found, as it is shown. -/
def SchemaInfo.toJson (info : SchemaInfo) : Json :=
  .obj [("subject", .str info.scope.render), ("version", .int info.number),
    ("id", .int info.schema.id), ("schema", info.schema.raw)]

end AvroRegistry
