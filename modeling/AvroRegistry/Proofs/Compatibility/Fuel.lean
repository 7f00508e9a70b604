import AvroRegistry.Compatibility.Resolution
import AvroRegistry.Proofs.Runs

/-!
# Fuel does not matter once there is enough

A check counts its nesting down from its fuel. With more fuel it does the same, unless it was
exhausted: `Refines` compares two steps in this way, every step of a check respects it in the checks
nested in it, and so `check` refines itself with more fuel (`check_mono`).
-/

namespace AvroRegistry.Compatibility

/-- The second step does what the first one does, wherever the first one is not exhausted. -/
def Refines {α : Type} (x y : Checking α) : Prop :=
  ∀ met, x met ≠ .error .exhausted → y met = x met

section

variable {α β : Type}

theorem Refines.refl (x : Checking α) : Refines x x := fun _ _ => rfl

theorem Refines.of_exhausted {x y : Checking α} (ends : ∀ met, x met = .error .exhausted) :
    Refines x y := fun met goesOn => absurd (ends met) goesOn

theorem Refines.bind {x y : Checking α} {f g : α → Checking β} (first : Refines x y)
    (then_ : ∀ a, Refines (f a) (g a)) : Refines (x >>= f) (y >>= g) := by
  intro met goesOn
  cases outcome : x met with
  | error e =>
    rw [Run.bind_of_error outcome] at goesOn ⊢
    have other : x met ≠ .error .exhausted := fun ends => by
      cases outcome.symm.trans ends
      exact goesOn rfl
    exact Run.bind_of_error ((first met other).trans outcome) g
  | ok result =>
    obtain ⟨a, between⟩ := result
    rw [Run.bind_of_ok outcome] at goesOn ⊢
    have other : x met ≠ .error .exhausted := fun ends => by cases outcome.symm.trans ends
    rw [Run.bind_of_ok ((first met other).trans outcome)]
    exact then_ a between goesOn

end

/-! ## The steps of a check -/

section

variable {step step' : Json → Checking (List Violation)}

theorem refines_checkAll (each : ∀ v, Refines (step v) (step' v)) (branches : List Json) :
    Refines (checkAll step branches) (checkAll step' branches) := by
  induction branches with
  | nil => exact .refl _
  | cons branch rest ih => exact (each branch).bind fun _ => ih.bind fun _ => .refl _

theorem refines_checkSome (each : ∀ v, Refines (step v) (step' v)) (branches : List Json) :
    Refines (checkSome step branches) (checkSome step' branches) := by
  induction branches with
  | nil => exact .refl _
  | cons branch rest ih =>
    refine (Refines.refl get).bind fun _ => (each branch).bind fun violations => ?_
    split
    · exact .refl _
    · exact (Refines.refl _).bind fun _ => ih

end

theorem refines_checkNamed (reader writer : Json) (path : String)
    {x y : Checking (List Violation)} (rest : Refines x y) :
    Refines (checkNamed reader writer path x) (checkNamed reader writer path y) := by
  refine (Refines.refl _).bind fun agree => ?_
  split
  · exact rest
  · exact .refl _

section

variable {step step' : Json → Json → String → Checking (List Violation)}
  (each : ∀ a b path, Refines (step a b path) (step' a b path))

include each

theorem refines_checkFields (path : String) (table : FieldTable) (fields : List Json) :
    Refines (checkFields step path table fields) (checkFields step' path table fields) := by
  induction fields with
  | nil => exact .refl _
  | cons field rest ih =>
    refine (Refines.refl _).bind fun name => (Refines.refl _).bind fun found => ?_
    cases found with
    | some found =>
      refine (Refines.refl _).bind fun matched => (Refines.refl _).bind fun readerType => ?_
      refine (Refines.refl _).bind fun writerType => (each _ _ _).bind fun first => ?_
      exact ih.bind fun _ => .refl _
    | none => exact ih.bind fun _ => .refl _

theorem refines_checkRecord (reader writer : Json) (path : String) :
    Refines (checkRecord step reader writer path) (checkRecord step' reader writer path) := by
  refine (Refines.refl get).bind fun met => ?_
  dsimp only
  split
  · exact .refl _
  · refine (Refines.refl _).bind fun _ => (Refines.refl _).bind fun writerFields => ?_
    refine (Refines.refl _).bind fun table => (Refines.refl _).bind fun readerFields => ?_
    exact (refines_checkFields each path table readerFields).bind fun _ => .refl _

theorem refines_checkTypes (reader writer : Json) (path : String) :
    Refines (checkTypes step reader writer path) (checkTypes step' reader writer path) := by
  refine (Refines.refl _).bind fun readerKind => (Refines.refl _).bind fun writerKind => ?_
  split
  · exact (Refines.refl _).bind fun branches => refines_checkAll (fun v => each _ v path) branches
  split
  · refine (Refines.refl _).bind fun branches => ?_
    exact (refines_checkSome (fun v => each v _ path) branches).bind fun _ => .refl _
  split
  · refine (Refines.refl _).bind fun primitive => ?_
    split
    · exact .refl _
    split
    · exact (Refines.refl _).bind fun _ => (Refines.refl _).bind fun _ => each _ _ _
    · exact (Refines.refl _).bind fun _ => (Refines.refl _).bind fun _ => each _ _ _
    · exact refines_checkNamed reader writer path (refines_checkRecord each reader writer path)
    · exact .refl _
    · exact .refl _
    · exact .refl _
  · exact .refl _

end

/-- A check with more fuel does what it does with less, unless that exhausts it. -/
theorem check_mono (readerNames writerNames : Names) {fuel more : Nat} (le : fuel ≤ more)
    (reader writer : Json) (path : String) :
    Refines (check readerNames writerNames fuel reader writer path)
      (check readerNames writerNames more reader writer path) := by
  induction fuel generalizing more reader writer path with
  | zero => exact .of_exhausted fun _ => rfl
  | succ fuel ih =>
    obtain ⟨more, rfl⟩ : ∃ n, more = n + 1 := ⟨more - 1, by omega⟩
    exact refines_checkTypes (fun a b path => ih (by omega) a b path) _ _ path

end AvroRegistry.Compatibility
