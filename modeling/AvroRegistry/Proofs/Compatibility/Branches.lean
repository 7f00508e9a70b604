import AvroRegistry.Compatibility.Resolution
import AvroRegistry.Proofs.Runs

/-!
# The check of the branches of a union

Every branch of a writer union is checked, one after the other, so that the pairs met grow along the
way. The branches of a reader union are tried, each from the same pairs, because one that fails puts
them back: the branch that reads the writer is checked as if it were the only one.
-/

namespace AvroRegistry.Compatibility

section

variable {α : Type} {value : α → Json} {step : Json → Checking (List Violation)}
  {branches : List α} {violations : List Violation} {found : Bool} {met met' : Met}

/-! ## Every branch of the writer -/

/-- What a check of a first branch and others did. -/
theorem checkAll_cons_eq_ok {b : α} (ok : checkAll step ((b :: branches).map value) met =
    .ok (violations, met')) :
    ∃ first between others, step (value b) met = .ok (first, between) ∧
      checkAll step (branches.map value) between = .ok (others, met') ∧
      violations = first ++ others := by
  rw [List.map_cons, checkAll] at ok
  obtain ⟨first, between, checked, ok⟩ := Run.bind_eq_ok.1 ok
  obtain ⟨others, after, rest, last⟩ := Run.bind_eq_ok.1 ok
  cases last
  exact ⟨first, between, others, checked, rest, rfl⟩

/-- If nothing is found, nothing was found for any branch, and whatever such a check does to the
pairs met is done along the way. -/
theorem checkAll_passed {extends_ : Met → Met → Prop} (refl : ∀ met, extends_ met met)
    (trans : ∀ {a b c}, extends_ a b → extends_ b c → extends_ a c)
    (passed : ∀ b ∈ branches, ∀ x y, step (value b) x = .ok ([], y) → extends_ x y)
    (ok : checkAll step (branches.map value) met = .ok ([], met')) :
    extends_ met met' ∧
      ∀ b ∈ branches, ∃ x y, step (value b) x = .ok ([], y) ∧ extends_ y met' := by
  induction branches generalizing met with
  | nil =>
    cases ok
    exact ⟨refl _, by simp⟩
  | cons b rest ih =>
    obtain ⟨first, between, others, checked, okRest, split⟩ := checkAll_cons_eq_ok ok
    obtain ⟨rfl, rfl⟩ := List.append_eq_nil_iff.1 split.symm
    obtain ⟨onward, later⟩ := ih (fun c mem => passed c (List.mem_cons_of_mem _ mem)) okRest
    have here := passed b List.mem_cons_self met between checked
    refine ⟨trans here onward, fun c mem => ?_⟩
    rcases List.mem_cons.1 mem with rfl | mem
    · exact ⟨met, between, checked, onward⟩
    · exact later c mem

/-- Whatever a check of one branch does to the pairs met, with violations or without, is done along
the way. -/
theorem checkAll_onward {extends_ : Met → Met → Prop} (refl : ∀ met, extends_ met met)
    (trans : ∀ {a b c}, extends_ a b → extends_ b c → extends_ a c)
    (each : ∀ b ∈ branches, ∀ x vs y, step (value b) x = .ok (vs, y) → extends_ x y)
    (ok : checkAll step (branches.map value) met = .ok (violations, met')) :
    extends_ met met' := by
  induction branches generalizing violations met with
  | nil =>
    cases ok
    exact refl _
  | cons b rest ih =>
    obtain ⟨first, between, others, checked, okRest, -⟩ := checkAll_cons_eq_ok ok
    exact trans (each b List.mem_cons_self met first between checked)
      (ih (fun c mem => each c (List.mem_cons_of_mem _ mem)) okRest)

/-- A check of all branches breaks down in that of one of them, after those before it. -/
theorem checkAll_eq_error {e : Breakdown}
    (broke : checkAll step (branches.map value) met = .error e) :
    ∃ before c after vs between, branches = before ++ c :: after ∧
      checkAll step (before.map value) met = .ok (vs, between) ∧
      step (value c) between = .error e := by
  induction branches generalizing met with
  | nil => cases broke
  | cons b rest ih =>
    rw [List.map_cons, checkAll] at broke
    rcases Run.bind_eq_error.1 broke with here | ⟨first, between, checked, later⟩
    · exact ⟨[], b, rest, [], met, rfl, rfl, here⟩
    · rcases Run.bind_eq_error.1 later with inside | ⟨others, after, -, last⟩
      · obtain ⟨before, c, others, vs, then_, rfl, tried, breaks⟩ := ih inside
        refine ⟨b :: before, c, others, first ++ vs, then_, rfl, ?_, breaks⟩
        rw [List.map_cons, checkAll, Run.bind_of_ok checked, Run.bind_of_ok tried]
        rfl
      · cases last

/-- Nothing is found if nothing is found for any branch. -/
theorem checkAll_clean
    (clean : ∀ b ∈ branches, ∀ x vs y, step (value b) x = .ok (vs, y) → vs = [])
    (ok : checkAll step (branches.map value) met = .ok (violations, met')) : violations = [] := by
  induction branches generalizing violations met with
  | nil =>
    cases ok
    rfl
  | cons b rest ih =>
    obtain ⟨first, between, others, checked, okRest, rfl⟩ := checkAll_cons_eq_ok ok
    rw [clean b List.mem_cons_self met first between checked,
      ih (fun c mem => clean c (List.mem_cons_of_mem _ mem)) okRest]
    rfl

/-- A check of all branches gives a result if that of each does, from any pairs met that satisfy
what those checks keep. -/
theorem checkAll_total {invariant : Met → Prop}
    (total : ∀ b ∈ branches, ∀ x, invariant x →
      ∃ vs y, step (value b) x = .ok (vs, y) ∧ invariant y)
    (start : invariant met) :
    ∃ violations met', checkAll step (branches.map value) met = .ok (violations, met') ∧
      invariant met' := by
  induction branches generalizing met with
  | nil => exact ⟨[], met, rfl, start⟩
  | cons b rest ih =>
    obtain ⟨first, between, checked, kept⟩ := total b List.mem_cons_self met start
    obtain ⟨others, after, okRest, keptRest⟩ :=
      ih (fun c mem => total c (List.mem_cons_of_mem _ mem)) kept
    rw [List.map_cons, checkAll, Run.bind_of_ok checked, Run.bind_of_ok okRest]
    exact ⟨_, after, rfl, keptRest⟩

/-! ## Some branch of the reader -/

theorem checkSome_cons (b : α) (first : List Violation) (between : Met)
    (checked : step (value b) met = .ok (first, between)) :
    checkSome step ((b :: branches).map value) met =
      if first.isEmpty then .ok (true, between) else checkSome step (branches.map value) met := by
  rw [List.map_cons, checkSome, Run.bind_of_ok (Run.get_apply met), Run.bind_of_ok checked]
  split
  · rfl
  · exact Run.bind_of_ok (Run.set_apply met between) _

/-- What trying the branches comes to: one of them passes from the pairs met before, or none does
and the pairs stay as they were. -/
theorem checkSome_eq_ok (ok : checkSome step (branches.map value) met = .ok (found, met')) :
    found = true ∧ (∃ b ∈ branches, step (value b) met = .ok ([], met')) ∨
      found = false ∧ met' = met ∧
        ∀ b ∈ branches, ∃ vs y, step (value b) met = .ok (vs, y) ∧ vs ≠ [] := by
  induction branches with
  | nil =>
    cases ok
    exact .inr ⟨rfl, rfl, by simp⟩
  | cons b rest ih =>
    cases checked : step (value b) met with
    | error e =>
      rw [List.map_cons, checkSome, Run.bind_of_ok (Run.get_apply met),
        Run.bind_of_error checked] at ok
      cases ok
    | ok result =>
      obtain ⟨first, between⟩ := result
      rw [checkSome_cons b first between checked] at ok
      cases first with
      | nil =>
        cases ok
        exact .inl ⟨rfl, b, List.mem_cons_self, checked⟩
      | cons v others =>
        rcases ih ok with ⟨yes, c, mem, passed⟩ | ⟨no, same, failed⟩
        · exact .inl ⟨yes, c, List.mem_cons_of_mem _ mem, passed⟩
        · refine .inr ⟨no, same, fun c mem => ?_⟩
          rcases List.mem_cons.1 mem with rfl | mem
          · exact ⟨_, between, checked, List.cons_ne_nil v others⟩
          · exact failed c mem

/-- Trying the branches breaks down in one of them, after those before it were tried in vain. -/
theorem checkSome_eq_error {e : Breakdown}
    (broke : checkSome step (branches.map value) met = .error e) :
    ∃ before c after, branches = before ++ c :: after ∧
      checkSome step (before.map value) met = .ok (false, met) ∧
      step (value c) met = .error e := by
  induction branches with
  | nil => cases broke
  | cons b rest ih =>
    cases checked : step (value b) met with
    | error e' =>
      rw [List.map_cons, checkSome, Run.bind_of_ok (Run.get_apply met),
        Run.bind_of_error checked] at broke
      cases broke
      exact ⟨[], b, rest, rfl, rfl, checked⟩
    | ok result =>
      obtain ⟨first, between⟩ := result
      rw [checkSome_cons b first between checked] at broke
      split at broke
      · cases broke
      · next some =>
        obtain ⟨before, c, after, rfl, vain, breaks⟩ := ih broke
        refine ⟨b :: before, c, after, rfl, ?_, breaks⟩
        rw [checkSome_cons b first between checked, if_neg some, vain]

/-- Trying the branches gives a result if the check of each does. -/
theorem checkSome_total {invariant : Met → Prop} (start : invariant met)
    (total : ∀ b ∈ branches, ∃ vs y, step (value b) met = .ok (vs, y) ∧ invariant y) :
    ∃ found met', checkSome step (branches.map value) met = .ok (found, met') ∧
      invariant met' := by
  induction branches with
  | nil => exact ⟨false, met, rfl, start⟩
  | cons b rest ih =>
    obtain ⟨first, between, checked, kept⟩ := total b List.mem_cons_self
    rw [checkSome_cons b first between checked]
    split
    · exact ⟨true, between, rfl, kept⟩
    · exact ih fun c mem => total c (List.mem_cons_of_mem _ mem)

end

end AvroRegistry.Compatibility
