import AvroRegistry.Fault
import Mathlib.Logic.Basic

/-!
# Outcomes of steps

A `Step` ends in a state whether it ends with a result or with a failure. This file says what the
outcome of a step is that is made of others, so that a proof about an operation goes from one part
to the next and never unfolds the monad.
-/

namespace AvroRegistry.Step

variable {σ α β : Type}

theorem outcome_pure (a : α) (s : σ) : (pure a : Step σ α).outcome s = (.ok a, s) := rfl

theorem outcome_throw (f : Failure) (s : σ) : (throw f : Step σ α).outcome s = (.error f, s) := rfl

theorem outcome_refuse (f : Fault) (s : σ) :
    (refuse f : Step σ α).outcome s = (.error (.fault f), s) := rfl

theorem outcome_get (s : σ) : (get : Step σ σ).outcome s = (.ok s, s) := rfl

/-- A step that gives a result gives it together with the state in which it ends. -/
theorem outcome_of_gives {x : Step σ α} {s : σ} {a : α}
    (gives : (x.outcome s).1.toOption = some a) : x.outcome s = (.ok a, (x.outcome s).2) := by
  cases ended : x.outcome s with
  | mk answer t =>
    rw [ended] at gives
    cases answer with
    | error failure => cases gives
    | ok result =>
      cases gives
      rfl

/-- A sequence goes on from where its first part ended, if that was with a result. -/
theorem outcome_bind (x : Step σ α) (f : α → Step σ β) (s : σ) :
    (x >>= f).outcome s =
      match x.outcome s with
      | (.ok a, t) => (f a).outcome t
      | (.error e, t) => (.error e, t) := by
  show (ExceptT.bindCont f (x.outcome s).1 : StateM σ (Except Failure β)) (x.outcome s).2 = _
  cases x.outcome s with
  | mk result t => cases result <;> rfl

theorem bind_of_ok {x : Step σ α} {s t : σ} {a : α} (first : x.outcome s = (.ok a, t))
    (f : α → Step σ β) : (x >>= f).outcome s = (f a).outcome t := by
  rw [outcome_bind, first]

theorem bind_of_error {x : Step σ α} {s t : σ} {e : Failure}
    (first : x.outcome s = (.error e, t)) (f : α → Step σ β) :
    (x >>= f).outcome s = (.error e, t) := by
  rw [outcome_bind, first]

/-- A result that is converted comes with the same state. -/
theorem outcome_map (x : Step σ α) (f : α → β) (s : σ) :
    (do return f (← x) : Step σ β).outcome s = ((x.outcome s).1.map f, (x.outcome s).2) := by
  rw [outcome_bind]
  cases x.outcome s with
  | mk result t => cases result <;> rfl

theorem outcome_discard (x : Step σ α) (s : σ) :
    (discard x : Step σ PUnit).outcome s =
      match x.outcome s with
      | (.ok _, t) => (.ok ⟨⟩, t)
      | (.error e, t) => (.error e, t) := by
  show (x >>= fun _ => (pure PUnit.unit : Step σ PUnit)).outcome s = _
  rw [outcome_bind]
  rfl

/-- A handler takes over from where a step failed. -/
theorem outcome_tryCatch (x : Step σ α) (handle : Failure → Step σ α) (s : σ) :
    (tryCatch x handle).outcome s =
      match x.outcome s with
      | (.ok a, t) => (.ok a, t)
      | (.error e, t) => (handle e).outcome t := by
  have unfolded : (tryCatch x handle).outcome s = ExceptT.tryCatch x handle s := rfl
  cases first : x.outcome s with
  | mk result t =>
    have ran : (x : StateM σ (Except Failure α)) s = (result, t) := first
    rw [unfolded, ExceptT.tryCatch]
    simp only [ExceptT.mk, bind, StateT.bind]
    rw [ran]
    cases result <;> rfl

end AvroRegistry.Step
