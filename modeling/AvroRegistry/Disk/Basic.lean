import AvroRegistry.Disk.Path
import AvroRegistry.Fault
import AvroRegistry.Storage.Tables
import AvroRegistry.Text.Utf8

/-!
# The disk

What can be seen of a file system: directories, files, and databases, each at a place, and the place
of the working directory. A place is the list of names that lead to it from the root.

`Disk.follow` goes along a path as far as directories lead, and says what stands in the way
otherwise. On it rest `Disk.read`, which gives the text of a file, and `Disk.makeDirectories`, which
makes the directories of a path. An operation that fails keeps the directories it has made until
then.
-/

namespace AvroRegistry

/-! ## Places -/

/-- The names that lead to a place from the root. -/
abbrev Place := List String

/-- A place in writing. -/
def Place.text (p : Place) : String := "/" ++ "/".intercalate p

/-- What stands at a place. -/
inductive Entry where
  | directory
  | file (bytes : List Nat)
  | database (tables : Tables)

/-- The places at which something stands, and the working directory, which is always there together
with the directories around it. -/
structure Disk where
  entries : List (Place × Entry) := []
  current : Place := []

/-- What stands in the way of using a place. -/
inductive Obstacle where
  | missing
  | occupied
  | notADirectory
  | isDirectory
  | nameTooLong
  deriving DecidableEq, Repr

namespace Obstacle

/-- The words for an obstacle. -/
def reason : Obstacle → String
  | missing => "No such file or directory"
  | occupied => "File exists"
  | notADirectory => "Not a directory"
  | isDirectory => "Is a directory"
  | nameTooLong => "File name too long"

/-- The number of an obstacle. -/
def number : Obstacle → Nat
  | missing => 2
  | occupied => 17
  | notADirectory => 20
  | isDirectory => 21
  | nameTooLong => 36

/-- The class of the refusal that an obstacle causes. -/
def kind : Obstacle → String
  | missing => "FileNotFoundError"
  | occupied => "FileExistsError"
  | notADirectory => "NotADirectoryError"
  | isDirectory => "IsADirectoryError"
  | nameTooLong => "OSError"

/-- The breakdown on an obstacle at a path. -/
def breakdown (o : Obstacle) (p : Path) : Breakdown :=
  .fileRefused o.kind
    ("[Errno " ++ toString o.number ++ "] " ++ o.reason ++ ": " ++ Json.literalText p.text)

end Obstacle

/-- The breakdown on a path that holds a character no path may hold. -/
def nulInPath : Breakdown := .badValue "embedded null byte"

namespace Disk

/-- How many bytes a name may have. -/
def maxNameBytes : Nat := 255

/-- How many bytes a path may have. -/
def maxPathBytes : Nat := 4095

/-- What stands at a place. -/
def entry? (d : Disk) (p : Place) : Option Entry :=
  if p.isPrefixOf d.current then some .directory else d.entries.lookup p

/-- The disk with something put at a place. -/
def put (d : Disk) (p : Place) (e : Entry) : Disk :=
  { d with entries := (p, e) :: d.entries.filter fun other => other.1 != p }

/-- The place at which a path starts. -/
def startOf (d : Disk) : Path.Start → Place
  | .here => d.current
  | _ => []

/-- Follows names from a place: the place they lead to, at which nothing may stand as long as its
directory is there. Only a directory leads on. -/
def followNames (d : Disk) (place : Place) : List String → Except Obstacle Place
  | [] => .ok place
  | name :: rest =>
    match d.entry? place with
    | none => .error .missing
    | some .directory =>
      if name = ".." then followNames d place.dropLast rest
      else if maxNameBytes < name.utf8ByteSize then .error .nameTooLong
      else followNames d (place ++ [name]) rest
    | some _ => .error .notADirectory

/-- Follows a path. -/
def follow (d : Disk) (p : Path) : Except Obstacle Place :=
  if maxPathBytes < p.text.utf8ByteSize then .error .nameTooLong
  else d.followNames (d.startOf p.start) p.names

/-! ## Reading -/

/-- What reading a file gives when it gives no text. -/
inductive ReadFailure where
  | obstacle (o : Obstacle)
  | breakdown (b : Breakdown)
  deriving DecidableEq, Repr

/-- The breakdown on a database taken as text: its first page holds a byte, at a fixed position,
with which no character starts. -/
def databaseIsNoText : Breakdown :=
  .notText "'utf-8' codec can't decode byte 0xff in position 106: invalid start byte"

/-- The text of an entry, with all line ends unified. -/
def Entry.read : Entry → Except ReadFailure String
  | .directory => .error (.obstacle .isDirectory)
  | .database _ => .error (.breakdown databaseIsNoText)
  | .file bytes =>
    match Text.decodeUtf8 bytes with
    | .ok cs => .ok (String.ofList (Text.unifyNewlines cs))
    | .error fault => .error (.breakdown (.notText fault.message))

/-- The text of the file at a path. -/
def read (d : Disk) (p : Path) : Except ReadFailure String :=
  if p.holdsNul then .error (.breakdown nulInPath)
  else
    match d.follow p with
    | .error o => .error (.obstacle o)
    | .ok place =>
      match d.entry? place with
      | none => .error (.obstacle .missing)
      | some e => Entry.read e

/-! ## Making directories -/

/-- The disk with a directory made at a path, at which nothing may stand yet. -/
def makeDirectory (d : Disk) (p : Path) : Except Obstacle Disk :=
  match d.follow p with
  | .error o => .error o
  | .ok place =>
    match d.entry? place with
    | none => .ok (d.put place .directory)
    | some _ => .error .occupied

/-- Whether a directory stands at a path. -/
def isDirectory (d : Disk) (p : Path) : Bool :=
  match d.follow p with
  | .error _ => false
  | .ok place =>
    match d.entry? place with
    | some .directory => true
    | _ => false

/-- Makes a directory at a path unless one is there. -/
def ensureDirectory (p : Path) : Step Disk Unit := do
  let d ← get
  match d.makeDirectory p with
  | .ok d => set d
  | .error o => if !d.isDirectory p then Step.collapse (o.breakdown p)

/-- Makes the directories that the names of a path lead to, of which the last one comes first: where
one is missing on the way, it is made before. -/
def makeAlong (start : Path.Start) : List String → Step Disk Unit
  | [] => ensureDirectory ⟨start, []⟩
  | name :: before => do
    let p : Path := ⟨start, (name :: before).reverse⟩
    match (← get).makeDirectory p with
    | .error .missing => makeAlong start before
    | _ => pure ()
    ensureDirectory p

/-- Makes the directories of a path. -/
def makeDirectories (p : Path) : Step Disk Unit :=
  if p.holdsNul then Step.collapse nulInPath else makeAlong p.start p.names.reverse

end Disk

end AvroRegistry
