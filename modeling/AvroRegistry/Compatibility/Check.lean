import AvroRegistry.Compatibility.Mode
import AvroRegistry.Compatibility.Resolution

/-!
# Checking a candidate against earlier schemas

`checkCompatibility` holds a candidate against the earlier schemas of its subject under a mode:
against all of them if the mode is transitive, against the last one otherwise, as reader, as writer
or as both. Every violation is tagged with its direction and the position of the earlier schema. A
candidate without predecessors is always compatible.
-/

namespace AvroRegistry.Compatibility

/-- Tags violations with a direction and a position. -/
def tag (direction : Direction) (index : Nat) (violations : List Violation) : List Violation :=
  violations.map fun v => { v with direction := some direction, reference := some index }

/-- The violations of one direction, if it is to be checked. -/
def checkDirection (wanted : Bool) (direction : Direction) (index : Nat) (reader writer : Json) :
    Except Breakdown (List Violation) :=
  if wanted then (checkReaderWriter reader writer).map (tag direction index) else .ok []

/-- The violations against one earlier schema. -/
def checkReference (candidate : Json) (mode : Mode) (index : Nat) (reference : Json) :
    Except Breakdown (List Violation) := do
  let backward ← checkDirection mode.checksBackward .backward index candidate reference
  let forward ← checkDirection mode.checksForward .forward index reference candidate
  return backward ++ forward

/-- The violations against earlier schemas given with their positions. -/
def checkTargets (candidate : Json) (mode : Mode) :
    List (Nat × Json) → Except Breakdown (List Violation)
  | [] => .ok []
  | (index, reference) :: rest => do
    let first ← checkReference candidate mode index reference
    let others ← checkTargets candidate mode rest
    return first ++ others

/-- The earlier schemas that a mode holds a candidate against, with their positions. -/
def targets (mode : Mode) (references : List Json) : List (Nat × Json) :=
  let numbered := (List.range references.length).zip references
  if mode.isTransitive then numbered else numbered.drop (references.length - 1)

/-- The violations of a candidate against earlier schemas, oldest first, under a mode. -/
def checkCompatibility (candidate : Json) (references : List Json) (mode : Mode) :
    Except Breakdown (List Violation) :=
  if mode = .none then .ok [] else checkTargets candidate mode (targets mode references)

/-- Whether a candidate satisfies a mode. -/
def isCompatible (candidate : Json) (references : List Json) (mode : Mode) :
    Except Breakdown Bool :=
  (checkCompatibility candidate references mode).map List.isEmpty

end AvroRegistry.Compatibility
