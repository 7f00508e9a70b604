import AvroRegistry.CommandLine.Command
import AvroRegistry.Proofs.Registry.Reachable
import AvroRegistry.Proofs.Store.Modes

/-!
# What the mode of one scope can reach

Reading, setting or removing the mode of a scope ends in one of four ways (`ModeEnds`): it is refused
for one of its arguments and nothing changes, or it gives the mode in effect for the scope, or the
mode that is set for it from then on, or the global mode, once the scope has none of its own. The
global mode and the modes of all other scopes stay as they are, and so does every row of the file
but the one of the scope.
-/

namespace AvroRegistry

open Compatibility (Mode)
open CommandLine (ConfigAction configOperation)

/-! ## Differing at one scope -/

/-- Tables that are the same but for the row of one key of the modes. -/
structure Tables.DifferOnlyAt (key : String) (t t' : Tables) : Prop where
  schemas : t'.schemas = t.schemas
  versions : t'.versions = t.versions
  others : t'.config.filter (fun row => row.key != some key) =
    t.config.filter fun row => row.key != some key

/-- Registries that are the same, in memory and in their files, but for the mode of one scope. -/
structure Registry.DifferOnlyAt (scope : Scope) (r r' : Registry) : Prop where
  schemas : r'.schemas = r.schemas
  versions : r'.versions = r.versions
  global : r'.config.global = r.config.global
  overrides : ∀ other, other ≠ scope → r'.config.override? other = r.config.override? other
  file : (r.storage = none ∧ r'.storage = none) ∨
    ∃ handle t handle' t', r.storage = some handle ∧ handle.volume = .database (some t) ∧
      r'.storage = some handle' ∧ handle'.volume = .database (some t') ∧
      t.DifferOnlyAt scope.render t'

namespace Registry

section

variable {default : Mode} {r : Registry} {scope : Scope}

/-! ## Rows -/

variable {action : ConfigAction} {mode : Option String} {subject part : Option Json}

/-- The tables of registries that differ at one scope differ at its row. -/
theorem DifferOnlyAt.tables {r' : Registry} (differ : r.DifferOnlyAt scope r')
    {handle handle' : Storage} {t t' : Tables} (backed : r.storage = some handle)
    (ready : handle.volume = .database (some t)) (backed' : r'.storage = some handle')
    (ready' : handle'.volume = .database (some t')) : t.DifferOnlyAt scope.render t' := by
  rcases differ.file with ⟨none, -⟩ | ⟨h, u, h', u', first, seen, second, seen', only⟩
  · cases backed.symm.trans none
  · cases backed.symm.trans first
    cases ready.symm.trans seen
    cases backed'.symm.trans second
    cases ready'.symm.trans seen'
    exact only

end

end Registry

end AvroRegistry
