import AvroRegistry.Disk.Basic
import AvroRegistry.Proofs.Steps

/-!
# Places that stay

Putting something at a place where no directory stands is seen at that place and nowhere else, and
no path loses its way: only directories lead on, and none of them has gone (`follow_put`). Hence
the directories of a path stay once they were made, and making them again changes nothing
(`isDirectory_of_makeDirectories`, `makeDirectories_there`).
-/

namespace AvroRegistry.Disk

variable {d d' : Disk} {place target : Place} {p : Path}

/-! ## Looking up -/

theorem lookup_elsewhere {entries : List (Place × Entry)} (apart : place ≠ target) :
    (entries.filter fun other => other.1 != target).lookup place = entries.lookup place := by
  induction entries with
  | nil => rfl
  | cons first rest ih =>
    obtain ⟨here, e⟩ := first
    by_cases same : here = target
    · have missed : (place == here) = false := by
        rw [same]
        exact beq_eq_false_iff_ne.2 apart
      rw [List.filter_cons_of_neg (by simp [same]), List.lookup_cons, missed]
      exact ih
    · rw [List.filter_cons_of_pos (by simpa using same), List.lookup_cons, List.lookup_cons, ih]

/-- A place where no directory stands is not the working directory, nor around it. -/
theorem not_around (free : d.entry? target ≠ some .directory) :
    target.isPrefixOf d.current = false := by
  refine Bool.eq_false_iff.2 fun around => free ?_
  unfold entry?
  rw [if_pos around]

theorem entry?_put (free : d.entry? target ≠ some .directory) (e : Entry) :
    Disk.entry? (d.put target e) target = some e := by
  have outside : target.isPrefixOf d.current = false := not_around free
  unfold entry?
  show (if target.isPrefixOf d.current then _ else _) = _
  rw [outside, if_neg Bool.false_ne_true]
  show List.lookup target ((target, e) :: _) = some e
  rw [List.lookup_cons, beq_self_eq_true]

theorem entry?_put_elsewhere (e : Entry) (apart : place ≠ target) :
    Disk.entry? (d.put target e) place = d.entry? place := by
  unfold entry?
  show (if place.isPrefixOf d.current then _ else
    List.lookup place ((target, e) :: d.entries.filter fun other => other.1 != target)) = _
  rw [List.lookup_cons, beq_eq_false_iff_ne.2 apart, lookup_elsewhere apart]

/-- A directory is where it was. -/
theorem directory_put (free : d.entry? target ≠ some .directory) (e : Entry)
    (there : d.entry? place = some .directory) :
    Disk.entry? (d.put target e) place = some .directory := by
  have apart : place ≠ target := fun same => free (same ▸ there)
  rw [entry?_put_elsewhere e apart, there]

/-! ## Following paths -/

/-- Names lead where they led: the directories on the way are still there. -/
theorem followNames_put (free : d.entry? target ≠ some .directory) (e : Entry)
    {names : List String} {found : Place} (followed : d.followNames place names = .ok found) :
    (d.put target e).followNames place names = .ok found := by
  induction names generalizing place with
  | nil => exact followed
  | cons name rest ih =>
    rw [followNames] at followed ⊢
    cases there : d.entry? place with
    | none =>
      rw [there] at followed
      cases followed
    | some entry =>
      rw [there] at followed
      cases entry with
      | file bytes => cases followed
      | database tables => cases followed
      | directory =>
        rw [directory_put free e there]
        dsimp only at followed ⊢
        split
        · next up =>
          rw [if_pos up] at followed
          exact ih followed
        · next down =>
          rw [if_neg down] at followed
          split
          · next long =>
            rw [if_pos long] at followed
            cases followed
          · next short =>
            rw [if_neg short] at followed
            exact ih followed

theorem follow_put (free : d.entry? target ≠ some .directory) (e : Entry)
    (followed : d.follow p = .ok place) : (d.put target e).follow p = .ok place := by
  have start : (d.put target e).startOf p.start = d.startOf p.start := by
    cases p.start <;> rfl
  unfold follow at followed ⊢
  split
  · next long =>
    rw [if_pos long] at followed
    cases followed
  · next short =>
    rw [if_neg short] at followed
    rw [start]
    exact followNames_put free e followed

/-! ## Directories -/

theorem isDirectory_iff : d.isDirectory p = true ↔
    ∃ place, d.follow p = .ok place ∧ d.entry? place = some .directory := by
  unfold isDirectory
  cases followed : d.follow p with
  | error o => simp
  | ok place =>
    have same : ∀ found : Place, (Except.ok place : Except Obstacle Place) = .ok found ↔
        place = found := fun found => ⟨Except.ok.inj, congrArg Except.ok⟩
    simp only [same, exists_eq_left']
    cases d.entry? place with
    | none => simp
    | some e => cases e <;> simp

theorem isDirectory_put (free : d.entry? target ≠ some .directory) (e : Entry)
    (there : d.isDirectory p = true) : (d.put target e).isDirectory p = true := by
  obtain ⟨place, followed, stands⟩ := isDirectory_iff.1 there
  exact isDirectory_iff.2 ⟨place, follow_put free e followed, directory_put free e stands⟩

/-- What was made at a path is a directory. -/
theorem isDirectory_of_made (made : d.makeDirectory p = .ok d') : d'.isDirectory p = true := by
  unfold makeDirectory at made
  cases followed : d.follow p with
  | error o =>
    rw [followed] at made
    cases made
  | ok place =>
    rw [followed] at made
    dsimp only at made
    cases stands : d.entry? place with
    | some e =>
      rw [stands] at made
      cases made
    | none =>
      rw [stands] at made
      cases made
      have free : d.entry? place ≠ some .directory := by
        rw [stands]
        exact nofun
      exact isDirectory_iff.2 ⟨place, follow_put free _ followed, entry?_put free _⟩

/-- Where a directory is, none is made. -/
theorem makeDirectory_there (there : d.isDirectory p = true) :
    d.makeDirectory p = .error .occupied := by
  obtain ⟨place, followed, stands⟩ := isDirectory_iff.1 there
  unfold makeDirectory
  rw [followed]
  dsimp only
  rw [stands]

/-! ## Making directories -/

theorem ensureDirectory_outcome (d : Disk) (p : Path) :
    (ensureDirectory p).outcome d =
      match d.makeDirectory p with
      | .ok made => (.ok (), made)
      | .error o =>
        if d.isDirectory p then (.ok (), d) else (.error (.breakdown (o.breakdown p)), d) := by
  show (match d.makeDirectory p with
    | .ok d => set d
    | .error o => if !d.isDirectory p then Step.collapse (o.breakdown p) else pure () :
      Step Disk Unit).outcome d = _
  cases d.makeDirectory p with
  | ok made => rfl
  | error o => cases d.isDirectory p <;> rfl

theorem ensureDirectory_there (there : d.isDirectory p = true) :
    (ensureDirectory p).outcome d = (.ok (), d) := by
  rw [ensureDirectory_outcome, makeDirectory_there there]
  dsimp only
  rw [if_pos there]

/-- Once a directory has been made sure of, it is there. -/
theorem isDirectory_of_ensured (ensured : (ensureDirectory p).outcome d = (.ok (), d')) :
    d'.isDirectory p = true := by
  rw [ensureDirectory_outcome] at ensured
  split at ensured
  · next made =>
    cases ensured
    exact isDirectory_of_made made
  · split at ensured
    · next there =>
      cases ensured
      exact there
    · cases ensured

variable {start : Path.Start} {names : List String}

theorem makeAlong_cons (d : Disk) (start : Path.Start) (name : String) (before : List String) :
    (makeAlong start (name :: before)).outcome d =
      (match d.makeDirectory ⟨start, (name :: before).reverse⟩ with
        | .error .missing =>
          makeAlong start before >>= fun _ => ensureDirectory ⟨start, (name :: before).reverse⟩
        | _ => ensureDirectory ⟨start, (name :: before).reverse⟩ : Step Disk Unit).outcome d := rfl

theorem makeAlong_there (there : d.isDirectory ⟨start, names.reverse⟩ = true) :
    (makeAlong start names).outcome d = (.ok (), d) := by
  cases names with
  | nil => exact ensureDirectory_there there
  | cons name before =>
    rw [makeAlong_cons, makeDirectory_there there]
    exact ensureDirectory_there there

/-- However many directories had to be made, the last one is there. -/
theorem isDirectory_of_makeAlong (made : (makeAlong start names).outcome d = (.ok (), d')) :
    d'.isDirectory ⟨start, names.reverse⟩ = true := by
  cases names with
  | nil => exact isDirectory_of_ensured made
  | cons name before =>
    rw [makeAlong_cons] at made
    split at made
    · rw [Step.outcome_bind] at made
      split at made
      · exact isDirectory_of_ensured made
      · cases made
    · exact isDirectory_of_ensured made

theorem makeDirectories_there (sayable : p.holdsNul = false) (there : d.isDirectory p = true) :
    (makeDirectories p).outcome d = (.ok (), d) := by
  unfold makeDirectories
  rw [sayable, if_neg Bool.false_ne_true]
  refine makeAlong_there ?_
  rw [List.reverse_reverse]
  exact there

/-- The directories of a path that have been made are there, and the path can be said. -/
theorem isDirectory_of_makeDirectories (made : (makeDirectories p).outcome d = (.ok (), d')) :
    p.holdsNul = false ∧ d'.isDirectory p = true := by
  unfold makeDirectories at made
  cases sayable : p.holdsNul with
  | true =>
    rw [sayable] at made
    cases made
  | false =>
    rw [sayable, if_neg Bool.false_ne_true] at made
    have there := isDirectory_of_makeAlong made
    rw [List.reverse_reverse] at there
    exact ⟨rfl, there⟩

end AvroRegistry.Disk
