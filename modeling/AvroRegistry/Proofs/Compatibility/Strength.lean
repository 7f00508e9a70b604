import AvroRegistry.Proofs.Compatibility.Consulted
import Mathlib.Logic.Relation

/-!
# Modes by strength

A mode asks in which directions a candidate is checked and which of the earlier schemas it is
checked against, and nothing else: the candidate is compatible if every such check passes
(`isCompatible_iff`). So a mode that asks for less is weaker (`isCompatible_of_weaker`); a mode that
checks both directions asks for what the modes of one direction ask together
(`isCompatible_full_iff`), and a transitive mode for what the mode on the latest version asks of
each schema alone (`isCompatible_overAll_iff`).

The violations follow the same pattern. Those of one direction are those of the other with the
schemas changed about (`checkCompatibility_forward`), and those against several schemas are those
against each alone, with its position (`checkCompatibility_eq_mapM`).
-/

namespace AvroRegistry.Compatibility

variable {candidate reference : Json} {references : List Json} {mode : Mode}

/-! ## Verdicts -/

/-- A candidate is compatible under a mode that checks what two others check together if it is under
both of them. -/
theorem isCompatible_both_iff {one other : Mode} (same : one.isTransitive = mode.isTransitive)
    (same' : other.isTransitive = mode.isTransitive)
    (checks : ∀ direction,
      mode.checks direction = (one.checks direction || other.checks direction)) :
    isCompatible candidate references mode = .ok true ↔
      isCompatible candidate references one = .ok true ∧
        isCompatible candidate references other = .ok true := by
  simp only [isCompatible_iff, consulted, same, same', checks, Bool.or_eq_true]
  constructor
  · intro both
    exact ⟨fun r mem d asked => both r mem d (.inl asked),
      fun r mem d asked => both r mem d (.inr asked)⟩
  · rintro ⟨first, second⟩ r mem d (asked | asked)
    · exact first r mem d asked
    · exact second r mem d asked

theorem isCompatible_full_iff :
    (isCompatible candidate references .full = .ok true ↔
      isCompatible candidate references .backward = .ok true ∧
        isCompatible candidate references .forward = .ok true) ∧
    (isCompatible candidate references .fullTransitive = .ok true ↔
      isCompatible candidate references .backwardTransitive = .ok true ∧
        isCompatible candidate references .forwardTransitive = .ok true) :=
  ⟨isCompatible_both_iff rfl rfl (by rintro (_ | _) <;> rfl),
    isCompatible_both_iff rfl rfl (by rintro (_ | _) <;> rfl)⟩

/-- The mode that asks of every earlier version what a mode asks of the latest one. -/
def Mode.overAll : Mode → Mode
  | .none => .none
  | .backward | .backwardTransitive => .backwardTransitive
  | .forward | .forwardTransitive => .forwardTransitive
  | .full | .fullTransitive => .fullTransitive

theorem Mode.overAll_checks (mode : Mode) (direction : Direction) :
    mode.overAll.checks direction = mode.checks direction := by
  cases mode <;> cases direction <;> rfl

theorem Mode.overAll_isTransitive (some : mode ≠ .none) : mode.overAll.isTransitive = true := by
  cases mode with
  | none => exact absurd rfl some
  | _ => rfl

/-- A candidate is compatible under a transitive mode if it is with each schema alone, under the
mode on the latest version. -/
theorem isCompatible_overAll_iff (mode : Mode) :
    isCompatible candidate references mode.overAll = .ok true ↔
      ∀ reference ∈ references, isCompatible candidate [reference] mode = .ok true := by
  simp only [isCompatible_iff, consulted_single, List.forall_mem_singleton, Mode.overAll_checks]
  by_cases some : mode = .none
  · subst some
    refine iff_of_true ?_ ?_
    all_goals
      rintro r - (_ | _) checks
      all_goals cases checks
  · rw [consulted, if_pos (Mode.overAll_isTransitive some)]

/-! ## Weaker modes -/

/-- One mode comes right below another one: nothing is below everything, what is asked of the latest
version is below what is asked of all of them, and one direction is below both. -/
inductive Mode.Below : Mode → Mode → Prop where
  | none (mode : Mode) : Below .none mode
  | overAll (mode : Mode) : Below mode mode.overAll
  | backward : Below .backward .full
  | forward : Below .forward .full
  | backwardTransitive : Below .backwardTransitive .fullTransitive
  | forwardTransitive : Below .forwardTransitive .fullTransitive

/-- A mode is weaker than another one: some steps down lead from the other one to it. -/
def Mode.Weaker : Mode → Mode → Prop := Relation.ReflTransGen Mode.Below

/-- Some mode asks for no more than another one: no other direction, and no more of the earlier
versions. -/
structure Mode.Within (mode other : Mode) : Prop where
  checks : ∀ direction, mode.checks direction = true → other.checks direction = true
  transitive : mode.isTransitive = true → other.isTransitive = true

theorem Mode.Below.within {mode other : Mode} (below : mode.Below other) : mode.Within other := by
  cases below with
  | none => exact ⟨by rintro (_ | _) <;> exact nofun, nofun⟩
  | overAll =>
    refine ⟨fun direction checks => ?_, fun transitive => ?_⟩
    · rw [Mode.overAll_checks]
      exact checks
    · exact Mode.overAll_isTransitive (by rintro rfl; cases transitive)
  | _ => exact ⟨by rintro (_ | _) <;> exact fun _ => rfl, id⟩

/-- A weaker mode asks for no more. -/
theorem Mode.Weaker.within {mode other : Mode} (weaker : mode.Weaker other) :
    mode.Within other := by
  induction weaker with
  | refl => exact ⟨fun _ => id, id⟩
  | tail _ below ih =>
    exact ⟨fun direction checks => below.within.checks direction (ih.checks direction checks),
      fun transitive => below.within.transitive (ih.transitive transitive)⟩

theorem Mode.Within.consulted {α : Type} {mode other : Mode} (within : mode.Within other)
    (references : List α) : consulted mode references ⊆ consulted other references := by
  unfold Compatibility.consulted
  by_cases all : other.isTransitive = true
  · rw [if_pos all]
    exact fun r mem => mem_of_consulted mem
  · rw [if_neg all, if_neg (mt within.transitive all)]
    exact List.Subset.refl _

/-- A candidate that is compatible under a mode is compatible under every weaker one. -/
theorem isCompatible_of_weaker {mode other : Mode} (weaker : mode.Weaker other)
    (ok : isCompatible candidate references other = .ok true) :
    isCompatible candidate references mode = .ok true := by
  have within := weaker.within
  rw [isCompatible_iff] at ok ⊢
  intro reference mem direction checks
  exact ok reference (within.consulted references mem) direction (within.checks direction checks)

/-! ## Violations -/

/-- Violations tagged with another direction. -/
def turned (direction : Direction) (violations : List Violation) : List Violation :=
  violations.map fun v => { v with direction := some direction }

theorem turned_tag (direction other : Direction) (index : Nat) (found : List Violation) :
    turned direction (tag other index found) = tag direction index found :=
  List.map_map

/-- The violations against several schemas are those against each alone, with its position. -/
theorem checkTargets_eq_mapM (targets : List (Nat × Json)) :
    checkTargets candidate mode targets =
      (targets.mapM fun t =>
        (checkCompatibility candidate [t.2] mode).map (numbered t.1)).map List.flatten := by
  induction targets with
  | nil => rfl
  | cons t rest ih =>
    rw [checkTargets, List.mapM_cons, ih, checkCompatibility_single, checkReference_numbered]
    cases checkReference candidate mode t.1 t.2 with
    | error b => rfl
    | ok found =>
      cases rest.mapM fun t => (checkCompatibility candidate [t.2] mode).map (numbered t.1) with
      | error b => rfl
      | ok others => rfl

/-- Under a transitive mode, the violations are those against each earlier schema alone, one after
the other, each tagged with the position of the schema. -/
theorem checkCompatibility_eq_mapM (transitive : mode.isTransitive = true) :
    checkCompatibility candidate references mode =
      (((List.range references.length).zip references).mapM fun t =>
        (checkCompatibility candidate [t.2] mode).map (numbered t.1)).map List.flatten := by
  have some : mode ≠ .none := by
    rintro rfl
    cases transitive
  rw [← checkTargets_eq_mapM, checkCompatibility, if_neg some, targets, if_pos transitive]

/-- The violations of one direction are those of the other one with the two schemas changed
about. -/
theorem checkCompatibility_forward :
    checkCompatibility candidate [reference] .forward =
      (checkCompatibility reference [candidate] .backward).map (turned .forward) := by
  rw [checkCompatibility_single, checkCompatibility_single]
  show (do return [] ++ (← (checkReaderWriter reference candidate).map (tag .forward 0)) :
      Except Breakdown (List Violation)) =
    (do return (← (checkReaderWriter reference candidate).map (tag .backward 0)) ++ [] :
      Except Breakdown (List Violation)).map (turned .forward)
  cases checkReaderWriter reference candidate with
  | error b => rfl
  | ok found =>
    show Except.ok (tag .forward 0 found) = .ok (turned .forward (tag .backward 0 found ++ []))
    rw [List.append_nil, turned_tag]

end AvroRegistry.Compatibility
