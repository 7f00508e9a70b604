import AvroRegistry.Proofs.Compatibility.Returning

/-!
# A verdict is one on each schema consulted

A candidate is held against the earlier schemas that the mode looks at, one after the other, in each
direction that the mode checks, and is compatible if it passes all of that (`isCompatible_iff`).
Whether it is compatible with all of them is whether it is with each one alone
(`isCompatible_each`): the position of a schema shows in the violations, not in the verdict. So
nothing changes if the earlier schemas have been narrowed down before to those that the mode looks
at (`isCompatible_consulted`).
-/

namespace AvroRegistry.Compatibility

variable {candidate reference : Json} {mode : Mode}

/-! ## Verdicts -/

/-- The check of a newer schema and an older one in a direction. -/
def Direction.check : Direction → Json → Json → Except Breakdown (List Violation)
  | .backward, older, newer => checkReaderWriter newer older
  | .forward, older, newer => checkReaderWriter older newer

/-- Whether a mode checks a direction. -/
def Mode.checks (mode : Mode) : Direction → Bool
  | .backward => mode.checksBackward
  | .forward => mode.checksForward

theorem bind_eq_nil {α : Type} {x y : Except Breakdown (List α)} :
    (do return (← x) ++ (← y) : Except Breakdown (List α)) = .ok [] ↔ x = .ok [] ∧ y = .ok [] := by
  cases x with
  | error b => exact iff_of_false nofun (fun h => nomatch h.1)
  | ok as =>
    cases y with
    | error b => exact iff_of_false nofun (fun h => nomatch h.2)
    | ok bs =>
      show Except.ok (as ++ bs) = .ok [] ↔ _
      simp

theorem map_eq_nil {α β : Type} {f : α → β} {x : Except Breakdown (List α)} :
    x.map (List.map f) = .ok [] ↔ x = .ok [] := by
  cases x with
  | error b => exact iff_of_false nofun nofun
  | ok as =>
    show Except.ok (as.map f) = .ok [] ↔ _
    simp

theorem checkDirection_eq_nil {wanted : Bool} {direction : Direction} {index : Nat}
    {reader writer : Json} :
    checkDirection wanted direction index reader writer = .ok [] ↔
      (wanted = true → checkReaderWriter reader writer = .ok []) := by
  unfold checkDirection
  split
  · next checks => exact map_eq_nil.trans (by simp [checks])
  · next checks => simp [checks]

theorem checkReference_eq_nil {index : Nat} :
    checkReference candidate mode index reference = .ok [] ↔
      ∀ direction, mode.checks direction = true → direction.check reference candidate = .ok [] := by
  unfold checkReference
  rw [bind_eq_nil, checkDirection_eq_nil, checkDirection_eq_nil]
  constructor
  · rintro ⟨backward, forward⟩ (_ | _)
    · exact backward
    · exact forward
  · exact fun each => ⟨each .backward, each .forward⟩

theorem checkTargets_eq_nil {targets : List (Nat × Json)} :
    checkTargets candidate mode targets = .ok [] ↔
      ∀ t ∈ targets, checkReference candidate mode t.1 t.2 = .ok [] := by
  induction targets with
  | nil => simp [checkTargets]
  | cons t rest ih => rw [List.forall_mem_cons, ← ih, ← bind_eq_nil, checkTargets]

/-- A candidate has no violations if it passes, against each schema that the mode looks at, in each
direction that the mode checks. -/
theorem checkCompatibility_eq_nil {references : List Json} :
    checkCompatibility candidate references mode = .ok [] ↔
      ∀ reference ∈ consulted mode references, ∀ direction, mode.checks direction = true →
        direction.check reference candidate = .ok [] := by
  unfold checkCompatibility
  split
  · next none =>
    subst none
    refine iff_of_true rfl fun reference _ direction checks => ?_
    cases direction <;> cases checks
  · rw [checkTargets_eq_nil, ← targets_schemas, List.forall_mem_map]
    exact forall₂_congr fun t _ => checkReference_eq_nil

/-- A candidate is compatible if it passes, against each schema that the mode looks at, in each
direction that the mode checks. -/
theorem isCompatible_iff {references : List Json} :
    isCompatible candidate references mode = .ok true ↔
      ∀ reference ∈ consulted mode references, ∀ direction, mode.checks direction = true →
        direction.check reference candidate = .ok [] := by
  rw [← checkCompatibility_eq_nil, isCompatible]
  cases checkCompatibility candidate references mode with
  | error b => exact iff_of_false nofun nofun
  | ok violations =>
    show Except.ok violations.isEmpty = .ok true ↔ _
    simp

/-! ## One schema -/

theorem targets_single : targets mode [reference] = [(0, reference)] := by
  unfold targets
  split
  all_goals rfl

theorem consulted_single {α : Type} (mode : Mode) (r : α) : consulted mode [r] = [r] := by
  unfold consulted
  split <;> rfl

/-- Against a single schema the violations have the position of the first one. -/
theorem checkCompatibility_single :
    checkCompatibility candidate [reference] mode = checkReference candidate mode 0 reference := by
  unfold checkCompatibility
  rw [targets_single]
  split
  · next none =>
    subst none
    rfl
  · unfold checkTargets
    cases checkReference candidate mode 0 reference with
    | error b => rfl
    | ok found => exact congrArg Except.ok (List.append_nil found)

theorem isCompatible_single :
    isCompatible candidate [reference] mode =
      (checkReference candidate mode 0 reference).map List.isEmpty := by
  unfold isCompatible
  rw [checkCompatibility_single]

/-- A candidate is compatible under every mode with a schema that it reads and that reads it. -/
theorem isCompatible_of_passes (backward : checkReaderWriter candidate reference = .ok [])
    (forward : checkReaderWriter reference candidate = .ok []) (mode : Mode) :
    isCompatible candidate [reference] mode = .ok true := by
  rw [isCompatible_iff, consulted_single, List.forall_mem_singleton]
  rintro (_ | _) -
  · exact backward
  · exact forward

theorem eq_nil_of_checkDirection {reader writer : Json} {wanted : Bool} {direction : Direction}
    {index : Nat} {violations : List Violation}
    (clean : ∀ found, checkReaderWriter reader writer = .ok found → found = [])
    (ok : checkDirection wanted direction index reader writer = .ok violations) :
    violations = [] := by
  unfold checkDirection at ok
  split at ok
  · cases checked : checkReaderWriter reader writer with
    | error b =>
      rw [checked] at ok
      cases ok
    | ok found =>
      obtain rfl := clean found checked
      rw [checked] at ok
      cases ok
      rfl
  · cases ok
    rfl

/-- If neither direction of a check finds anything, no verdict is against the candidate. -/
theorem eq_true_of_isCompatible
    (backward : ∀ found, checkReaderWriter candidate reference = .ok found → found = [])
    (forward : ∀ found, checkReaderWriter reference candidate = .ok found → found = [])
    {verdict : Bool} (ok : isCompatible candidate [reference] mode = .ok verdict) :
    verdict = true := by
  rw [isCompatible_single] at ok
  unfold checkReference at ok
  cases first : checkDirection mode.checksBackward .backward 0 candidate reference with
  | error b =>
    rw [first] at ok
    cases ok
  | ok found =>
    obtain rfl := eq_nil_of_checkDirection backward first
    cases second : checkDirection mode.checksForward .forward 0 reference candidate with
    | error b =>
      rw [first, second] at ok
      cases ok
    | ok others =>
      obtain rfl := eq_nil_of_checkDirection forward second
      rw [first, second] at ok
      cases ok
      rfl

/-! ## Positions -/

/-- Violations tagged with another position. -/
def numbered (index : Nat) (violations : List Violation) : List Violation :=
  violations.map fun v => { v with reference := some index }

theorem numbered_append (index : Nat) (found others : List Violation) :
    numbered index (found ++ others) = numbered index found ++ numbered index others :=
  List.map_append

theorem numbered_tag (direction : Direction) (index other : Nat) (found : List Violation) :
    numbered index (tag direction other found) = tag direction index found :=
  List.map_map

theorem checkDirection_numbered (wanted : Bool) (direction : Direction) (index other : Nat)
    (reader writer : Json) :
    (checkDirection wanted direction other reader writer).map (numbered index) =
      checkDirection wanted direction index reader writer := by
  unfold checkDirection
  split
  · cases checkReaderWriter reader writer with
    | error b => rfl
    | ok found => exact congrArg Except.ok (numbered_tag direction index other found)
  · rfl

/-- The position of an earlier schema shows in its violations and nowhere else. -/
theorem checkReference_numbered (index other : Nat) :
    (checkReference candidate mode other reference).map (numbered index) =
      checkReference candidate mode index reference := by
  unfold checkReference
  rw [← checkDirection_numbered _ _ index other, ← checkDirection_numbered _ _ index other]
  cases checkDirection mode.checksBackward .backward other candidate reference with
  | error b => rfl
  | ok found =>
    cases checkDirection mode.checksForward .forward other reference candidate with
    | error b => rfl
    | ok others => exact congrArg Except.ok (numbered_append index found others)

/-! ## All of them -/

/-- A check of a candidate against one schema gives a result at every position or at none. -/
theorem checkReference_of_single (returns : ∃ verdict, isCompatible candidate [reference] mode =
    .ok verdict) (index : Nat) :
    ∃ violations, checkReference candidate mode index reference = .ok violations := by
  obtain ⟨verdict, ok⟩ := returns
  rw [isCompatible, checkCompatibility_single] at ok
  rw [← checkReference_numbered index 0]
  cases found : checkReference candidate mode 0 reference with
  | error b =>
    rw [found] at ok
    cases ok
  | ok violations => exact ⟨numbered index violations, rfl⟩

/-- A candidate is compatible with earlier schemas exactly if it is compatible with each of those
that the mode looks at. -/
theorem isCompatible_each {references : List Json}
    (returns : ∀ r ∈ consulted mode references, ∃ verdict,
      isCompatible candidate [r] mode = .ok verdict) :
    ∃ verdict, isCompatible candidate references mode = .ok verdict ∧
      (verdict = true ↔
        ∀ r ∈ consulted mode references, isCompatible candidate [r] mode = .ok true) := by
  obtain ⟨violations, checked⟩ := checkCompatibility_of_consulted fun r mem index =>
    checkReference_of_single (returns r mem) index
  have verdict : isCompatible candidate references mode = .ok violations.isEmpty := by
    rw [isCompatible, checked]
    rfl
  refine ⟨violations.isEmpty, verdict, ?_⟩
  rw [← Except.ok.injEq, ← verdict]
  simp only [isCompatible_iff, consulted_single, List.forall_mem_singleton]

theorem consulted_idem {α : Type} (references : List α) :
    consulted mode (consulted mode references) = consulted mode references := by
  unfold consulted
  split
  · rfl
  · rw [List.length_drop, List.drop_drop]
    congr 1
    omega

/-- Narrowing down the earlier schemas to those that the mode looks at does not change the
verdict. -/
theorem isCompatible_consulted {references : List Json}
    (returns : ∀ r ∈ consulted mode references, ∃ verdict,
      isCompatible candidate [r] mode = .ok verdict) :
    isCompatible candidate (consulted mode references) mode =
      isCompatible candidate references mode := by
  obtain ⟨verdict, ok, all⟩ := isCompatible_each returns
  rw [← consulted_idem] at returns
  obtain ⟨verdict', ok', all'⟩ := isCompatible_each returns
  rw [consulted_idem, ← all] at all'
  rw [ok, ok', Bool.eq_iff_iff.2 all']

end AvroRegistry.Compatibility
