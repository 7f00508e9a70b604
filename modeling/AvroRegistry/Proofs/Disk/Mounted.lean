import AvroRegistry.Disk.Registry
import AvroRegistry.Proofs.Disk.Places

/-!
# Files that stay where they are

A handle looks for its file anew at every step: it makes the directories on the way, takes the time
that it would wait, and then looks what stands there. Once it has found a database in this way it
finds it again and changes nothing (`Reaches.finds`), and after it has written tables there, it
finds those (`Finds.kept`).
-/

namespace AvroRegistry.Disk

variable {d d' : Disk} {p : Path} {place : Place} {handle other : Storage}
  {tables : Option Tables} {t : Tables} {patience : Nat}

/-! ## What stands at a path -/

/-- A path leads to a place at which a database may stand: neither the place nor its name is too
long. -/
structure Leads (d : Disk) (p : Path) (place : Place) : Prop where
  lasting : p.text ≠ fleetingPath
  follows : d.follow p = .ok place
  short : d.isTooLong p place = false
  named : (place.getLast?.any fun name => decide (maxDatabaseNameBytes < name.utf8ByteSize)) = false

theorem Leads.volumeAt (leads : d.Leads p place) : d.volumeAt p = volumeOf (d.entry? place) := by
  unfold Disk.volumeAt
  rw [if_neg leads.lasting, leads.follows]
  dsimp only
  rw [leads.short, leads.named, if_neg Bool.false_ne_true]
  cases volumeOf (d.entry? place) <;> rfl

/-- Where a database stands, the path leads there. -/
theorem leads_of_database (stands : d.volumeAt p = .database tables) :
    ∃ place, d.Leads p place ∧ volumeOf (d.entry? place) = .database tables := by
  unfold volumeAt at stands
  split at stands
  · cases stands
  · next lasting =>
    cases followed : d.follow p with
    | error o =>
      rw [followed] at stands
      cases stands
    | ok place =>
      rw [followed] at stands
      dsimp only at stands
      split at stands
      · cases stands
      · next short =>
        split at stands
        · cases stands
        · split at stands
          · cases stands
          · next named =>
            exact ⟨place, ⟨lasting, followed, Bool.eq_false_iff.2 short,
              Bool.eq_false_iff.2 named⟩, stands⟩

/-- A directory is no database. -/
theorem free_of_database (stands : volumeOf (d.entry? place) = .database tables) :
    d.entry? place ≠ some .directory := by
  intro directory
  rw [directory] at stands
  cases stands

/-- Putting something where no directory stands leaves the path as it is. -/
theorem Leads.put (leads : d.Leads p place) (free : d.entry? place ≠ some .directory) (e : Entry) :
    (d.put place e).Leads p place where
  lasting := leads.lasting
  follows := follow_put free e leads.follows
  short := by
    have start : (d.put place e).startOf p.start = d.startOf p.start := by cases p.start <;> rfl
    have short := leads.short
    unfold isTooLong at short ⊢
    rw [start]
    exact short
  named := leads.named

/-! ## Getting at a file -/

/-- To get at a file, the directories around it are made, the time to wait must be a number, and the
path must be one that can be said. -/
theorem reach_eq_ok {volume : Volume} :
    (reach p patience).outcome d = (.ok volume, d') ↔
      (makeDirectories p.parent).outcome d = (.ok (), d') ∧
        (∃ x, Binary64.convert patience = .ok x) ∧ p.holdsNul = false ∧
        d'.volumeAt p = volume := by
  unfold reach
  rw [Step.outcome_bind]
  cases (makeDirectories p.parent).outcome d with
  | mk result between =>
    cases result with
    | error failure =>
      refine iff_of_false nofun ?_
      rintro ⟨made, -⟩
      cases made
    | ok =>
      dsimp only
      cases Binary64.convert patience with
      | error b =>
        refine iff_of_false nofun ?_
        rintro ⟨-, ⟨x, converted⟩, -⟩
        cases converted
      | ok x =>
        dsimp only
        cases p.holdsNul with
        | true =>
          rw [if_pos rfl]
          refine iff_of_false nofun ?_
          rintro ⟨-, -, sayable, -⟩
          cases sayable
        | false =>
          rw [if_neg Bool.false_ne_true]
          show ((.ok (between.volumeAt p), between) : Except Failure Volume × Disk) = _ ↔ _
          constructor
          · intro same
            cases same
            exact ⟨rfl, ⟨x, rfl⟩, rfl, rfl⟩
          · rintro ⟨made, -, -, rfl⟩
            cases made
            rfl

/-- A handle gets at a database, making directories on the way. -/
def Reaches (d : Disk) (handle : Storage) (tables : Option Tables) (d' : Disk) : Prop :=
  (reach (Path.ofText handle.path) handle.patience).outcome d = (.ok (.database tables), d')

/-- A handle finds a database, and nothing needs to be made for it. -/
def Finds (d : Disk) (handle : Storage) (tables : Option Tables) : Prop :=
  d.Reaches handle tables d

/-- What a handle gets at it finds again. -/
theorem Reaches.finds (reaches : d.Reaches handle tables d') : d'.Finds handle tables := by
  obtain ⟨made, waits, sayable, stands⟩ := reach_eq_ok.1 reaches
  obtain ⟨sayable', there⟩ := isDirectory_of_makeDirectories made
  exact reach_eq_ok.2 ⟨makeDirectories_there sayable' there, waits, sayable, stands⟩

/-- A handle sees the database that it gets at. -/
theorem Reaches.mount (reaches : d.Reaches handle tables d') :
    d.mount handle = ({ handle with volume := .database tables }, d') := by
  unfold Disk.mount
  rw [reaches]

/-- Tables that were written through a handle, or through another one at the same place, are
found. -/
theorem Finds.kept (finds : d.Finds handle tables) (path : other.path = handle.path)
    (written : other.volume = .database (some t)) : (d.keep other).Finds handle (some t) := by
  obtain ⟨made, waits, sayable, stands⟩ := reach_eq_ok.1 finds
  obtain ⟨sayable', there⟩ := isDirectory_of_makeDirectories made
  obtain ⟨place, leads, database⟩ := leads_of_database stands
  have free := free_of_database database
  have kept : d.keep other = d.put place (.database t) := by
    unfold keep
    rw [written, path, leads.follows]
  rw [kept]
  refine reach_eq_ok.2 ⟨?_, waits, sayable, ?_⟩
  · exact makeDirectories_there sayable' (isDirectory_put free _ there)
  · rw [(leads.put free _).volumeAt, entry?_put free]
    rfl

/-- What is found depends on where a handle is, not on what it has seen there. -/
theorem Finds.anchored (finds : d.Finds handle tables) (path : other.path = handle.path)
    (patience : other.patience = handle.patience) : d.Finds other tables := by
  unfold Finds Reaches
  rw [path, patience]
  exact finds

end AvroRegistry.Disk
