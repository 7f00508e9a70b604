import AvroRegistry.CommandLine.Session
import AvroRegistry.Storage.Archive

/-!
# The program

Runs one session: it brings what stands along the paths that the command line and the settings name
into a disk, lets `CommandLine.run` decide everything, writes back what has changed on the disk and
prints what comes of it.
-/

namespace AvroRegistry.CommandLine

/-- What is written to the error stream. -/
def Outcome.errors : Outcome → String
  | .refused f => f.toJson.encode { Json.spaced with sortKeys := true } ++ "\n"
  | .usage e => Outcome.helpText ++ "schemahub: error: " ++ e.message ++ "\n"
  | .badSettings issues =>
    String.join (issues.map fun issue => issue.setting ++ ": " ++ issue.complaint.message ++ "\n")
  | .collapsed b => b.name ++ ": " ++ b.text?.getD "" ++ "\n"
  | _ => ""

/-- What bytes at a place are: a database if they are the archive of one, or else a file. -/
def Entry.ofBytes (bytes : List Nat) : Entry :=
  match Tables.ofArchive? bytes with
  | some tables => .database tables
  | none => .file bytes

/-- Looks at what stands at a place. What cannot be read as a file is taken for a directory. -/
def look (p : Place) : IO (Option Entry) := do
  try
    let bytes ← IO.FS.readBinFile (Place.text p)
    return some (Entry.ofBytes (bytes.toList.map UInt8.toNat))
  catch
    | .noFileOrDirectory .. => return none
    | _ => return some .directory

/-- Brings what stands along a path into a disk. -/
def bring (disk : Disk) (path : Path) : IO Disk := do
  let mut disk := disk
  let mut place := disk.startOf path.start
  for name in path.names do
    place := if name = ".." then place.dropLast else place ++ [name]
    match disk.entry? place with
    | some _ => pure ()
    | none =>
      match ← look place with
      | some entry => disk := disk.put place entry
      | none => pure ()
  return disk

/-- Writes back what is new: directories that were made, and databases. -/
def writeBack (before after : Disk) : IO Unit := do
  for (place, entry) in after.entries.reverse do
    match entry with
    | .directory =>
      if (before.entry? place).isNone then IO.FS.createDirAll (Place.text place)
    | .database tables => IO.FS.writeFile (Place.text place) tables.archive
    | .file _ => pure ()

/-- The variables of the environment that settings may come from. -/
def readEnvironment : IO (List (String × String)) := do
  let mut found := []
  for name in Settings.names do
    let key := (Settings.environmentHead ++ name).toUpper
    match ← IO.getEnv key with
    | some value => found := found ++ [(key, value)]
    | none => pure ()
  return found

/-- The paths that a call may read or write: that of the schema, and that of the registry. -/
def pathsOf (environment : List (String × String)) (arguments : List String) : List Path :=
  match Invocation.ofArguments arguments with
  | .error _ => []
  | .ok invocation =>
    let schema := match invocation.command.source? with
      | some (.file (.str name)) => [name]
      | _ => []
    let storage := match settingsOf environment invocation.storage with
      | .ok settings => settings.file?.toList
      | .error _ => []
    ((schema ++ storage).map Path.ofText).filter fun path => !path.holdsNul

/-- Runs one call of the command line and gives its exit status. -/
def call (arguments : List String) : IO UInt32 := do
  let environment ← readEnvironment
  let here := Path.ofText (toString (← IO.currentDir))
  let mut disk : Disk := { current := here.names }
  for path in pathsOf environment arguments do
    disk ← bring disk path
  let (outcome, after) := run environment arguments disk
  writeBack disk after
  IO.print outcome.output
  IO.eprint outcome.errors
  return UInt32.ofNat outcome.status

end AvroRegistry.CommandLine

/-- The command line of the registry. -/
def main (arguments : List String) : IO UInt32 := AvroRegistry.CommandLine.call arguments
