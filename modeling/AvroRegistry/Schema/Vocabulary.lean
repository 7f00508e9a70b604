import AvroRegistry.Json.Basic
import AvroRegistry.Text.Split

/-!
# The words of the schema language

The names of the primitive types, the kinds of named types, and how a name and a namespace make a
full name. A name with a dot is full already, whatever the namespace around it.
-/

namespace AvroRegistry.Schema

/-- The names of the primitive types. -/
def primitiveNames : List String :=
  ["null", "boolean", "int", "long", "float", "double", "bytes", "string"]

/-- Whether a name is that of a primitive type. -/
def isPrimitive (name : String) : Bool := primitiveNames.contains name

/-- The kinds of types that have a name. -/
def namedKinds : List String := ["record", "error", "enum", "fixed"]

/-- Whether a word is a kind of named type. -/
def isNamedKind (kind : String) : Bool := namedKinds.contains kind

/-- Whether a name is full on its own. -/
def isDotted (name : String) : Bool := name.toList.contains '.'

/-- A name in a namespace: a dotted name stays, and so does any name where there is no namespace. -/
def qualify (name space : String) : String :=
  if isDotted name || space == "" then name else space ++ "." ++ name

/-- The namespace of a full name, empty if it has none. -/
def spaceOf (full : String) : String := Text.beforeLast '.' full

/-- A full name without its namespace. -/
def unqualified (full : String) : String := Text.afterLast '.' full

end AvroRegistry.Schema
