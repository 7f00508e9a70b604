import AvroRegistry.Disk.Basic
import AvroRegistry.Registry
import AvroRegistry.Settings

/-!
# Registries on a disk

What a registry's handle meets at the path of its file, and steps that take place on a disk: the
handle sees what stands at its path before a step (`Disk.mount`), and what becomes of it stays there
afterwards (`Disk.keep`). `Step.onDisk` puts both around a step on any state with a file behind it
and leaves its outcome as it is.

`Registry.openOn` opens the registry that settings describe.
-/

namespace AvroRegistry

/-! ## Handles -/

/-- The path of a database that lasts as long as one connection. -/
def fleetingPath : String := ":memory:"

/-- How many bytes the place of a database may have in writing. -/
def maxDatabaseBytes : Nat := 504

/-- How many bytes the places on the way to a database may have in writing. -/
def maxWayBytes : Nat := 511

/-- How many bytes the name of a database may have, so that the name of its journal is no longer
than a name may be. -/
def maxDatabaseNameBytes : Nat := Disk.maxNameBytes - "-journal".utf8ByteSize

/-- A handle on the file at a path, before anything is known of the file. -/
def Storage.ofPath (path : String) (patience : Nat) : Storage :=
  { path := (Path.ofText path).text, patience := patience }

namespace Disk

/-- What an entry is as the file of a registry. A file of a single byte counts as an empty one. -/
def volumeOf : Option Entry → Volume
  | none => .database none
  | some .directory => .closed
  | some (.database tables) => .database (some tables)
  | some (.file bytes) => if bytes.length ≤ 1 then .database none else .foreign

/-- The places that names pass on their way from a place. -/
def wayFrom (place : Place) : List String → List Place
  | [] => []
  | name :: rest =>
    let next := if name = ".." then place.dropLast else place ++ [name]
    next :: wayFrom next rest

/-- Whether the place that a path leads to, or one on the way, is too long in writing for a
database. -/
def isTooLong (d : Disk) (p : Path) (place : Place) : Bool :=
  decide (maxDatabaseBytes < (Place.text place).utf8ByteSize) ||
    (wayFrom (d.startOf p.start) p.names).any fun other =>
      decide (maxWayBytes < (Place.text other).utf8ByteSize)

/-- What stands at a path as the file of a registry. -/
def volumeAt (d : Disk) (p : Path) : Volume :=
  if p.text = fleetingPath then .fleeting
  else
    match d.follow p with
    | .error _ => .closed
    | .ok place =>
      if d.isTooLong p place then .closed
      else
        match volumeOf (d.entry? place) with
        | .closed => .closed
        | volume =>
          let hasLongName := place.getLast?.any fun name =>
            decide (maxDatabaseNameBytes < name.utf8ByteSize)
          if hasLongName then .cramped else volume

/-- Gets at the file of a path: the directory it is in is made, the time to wait for other
connections is taken as a real number, and then the path has to be one. -/
def reach (p : Path) (patience : Nat) : Step Disk Volume := do
  makeDirectories p.parent
  match Binary64.convert patience with
  | .error b => Step.collapse b
  | .ok _ => if p.holdsNul then Step.collapse nulInPath else return (← get).volumeAt p

/-- A handle that sees what stands at its path. -/
def mount (d : Disk) (s : Storage) : Storage × Disk :=
  match (reach (Path.ofText s.path) s.patience).outcome d with
  | (.ok volume, d) => ({ s with volume := volume }, d)
  | (.error (.breakdown b), d) => ({ s with volume := .unreachable b }, d)
  | (.error (.fault _), d) => ({ s with volume := .closed }, d)

/-- The disk with what became of the file of a handle. A file that could be made but not used stays
there empty. -/
def keep (d : Disk) (s : Storage) : Disk :=
  match s.volume, d.follow (Path.ofText s.path) with
  | .database (some tables), .ok place => d.put place (.database tables)
  | .cramped, .ok place => if (d.entry? place).isSome then d else d.put place (.file [])
  | _, _ => d

end Disk

/-! ## Steps on a disk -/

/-- A state that may have a handle on a file. -/
class HasFile (σ : Type) where
  /-- The handle, if there is one. -/
  file? : σ → Option Storage
  /-- The state with another handle, or with none. -/
  withFile : Option Storage → σ → σ

instance : HasFile Storage := ⟨some, fun handle s => handle.getD s⟩

instance : HasFile (Option Storage) := ⟨id, fun handle _ => handle⟩

instance {σ : Type} : HasFile (Backed σ) :=
  ⟨Backed.storage, fun handle b => { b with storage := handle }⟩

instance : HasFile Registry := ⟨Registry.storage, fun handle r => { r with storage := handle }⟩

/-- A state whose handle, if there is one, sees what stands at its path. -/
def Disk.mountIn {σ : Type} [HasFile σ] (d : Disk) (s : σ) : σ × Disk :=
  match HasFile.file? s with
  | none => (s, d)
  | some handle =>
    let (handle, d) := d.mount handle
    (HasFile.withFile (some handle) s, d)

/-- The disk with what became of the file of a state. -/
def Disk.keepOf {σ : Type} [HasFile σ] (d : Disk) (s : σ) : Disk :=
  match HasFile.file? s with
  | none => d
  | some handle => d.keep handle

/-- A step made on a disk. -/
def Step.onDisk {σ α : Type} [HasFile σ] (step : Step σ α) : Step (σ × Disk) α := fun (s, d) =>
  let (s, d) := d.mountIn s
  let (outcome, s) := step.outcome s
  (outcome, (s, d.keepOf s))

/-- Opens the registry that settings describe. -/
def Registry.openOn (settings : Settings) : Step Disk Registry := fun d =>
  let handle := settings.file?.map fun path => Storage.ofPath path settings.busyTimeout
  let (outcome, _, d) := (Step.onDisk (Registry.openWith settings.defaultMode)).outcome (handle, d)
  (outcome, d)

end AvroRegistry
