/-!
# Paths

A path says where it starts and lists the names on the way. `Path.ofText` cuts a text at its
slashes; empty names and single dots do not count, while two dots stay, since where they lead
depends on the disk. Two slashes at the start, and no more than two, are kept apart from one.

`Path.text` writes a path down without what does not count.
-/

namespace AvroRegistry

/-- Where a path starts. -/
inductive Path.Start where
  /-- The working directory. -/
  | here
  /-- The root. -/
  | root
  /-- The root, written with two slashes. -/
  | doubledRoot
  deriving DecidableEq, Repr

/-- A path: its start and the names on the way. -/
structure Path where
  start : Path.Start
  names : List String
  deriving DecidableEq, Repr

namespace Path

/-- The pieces of a text between slashes. -/
def pieces : List Char → List (List Char)
  | [] => [[]]
  | c :: rest =>
    match pieces rest with
    | [] => [[c]]
    | piece :: others => if c = '/' then [] :: piece :: others else (c :: piece) :: others

/-- Where the path of a text starts. -/
def startOf : List Char → Start
  | '/' :: '/' :: '/' :: _ => .root
  | '/' :: '/' :: _ => .doubledRoot
  | '/' :: _ => .root
  | _ => .here

/-- The path that a text means. -/
def ofText (s : String) : Path where
  start := startOf s.toList
  names := ((pieces s.toList).filter fun p => p ≠ [] && p ≠ ['.']).map String.ofList

/-- A start in writing. -/
def Start.text : Start → String
  | here => ""
  | root => "/"
  | doubledRoot => "//"

/-- A path in writing. -/
def text (p : Path) : String :=
  if p.start = .here && p.names.isEmpty then "."
  else p.start.text ++ "/".intercalate p.names

/-- The path without its last name. -/
def parent (p : Path) : Path := { p with names := p.names.dropLast }

/-- Whether a path holds a character that no path may hold. -/
def holdsNul (p : Path) : Bool := p.names.any fun name => name.toList.contains '\x00'

end Path

end AvroRegistry
