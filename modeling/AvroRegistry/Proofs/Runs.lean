import Mathlib.Logic.Basic

/-!
# Runs of steps that carry a state and may fail

The steps that read a schema, bring it into canonical form, collect its names and hold it against
another one are all `StateT` over `Except`. This file says when such a step succeeds and what a
sequence of two steps does, so that a proof about a step names what each part gave and never
unfolds the monad.
-/

namespace AvroRegistry.Run

variable {σ ε α β : Type}

/-- A step from a state: a result with the state after it, or a failure. -/
abbrev Stepping (σ ε α : Type) : Type := StateT σ (Except ε) α

theorem get_apply (s : σ) : (get : Stepping σ ε σ) s = .ok (s, s) := rfl

theorem set_apply (t s : σ) : (set t : Stepping σ ε PUnit) s = .ok (⟨⟩, t) := rfl

theorem modify_apply (f : σ → σ) (s : σ) :
    (modify f : Stepping σ ε PUnit) s = .ok (⟨⟩, f s) := rfl

theorem map_apply (f : α → β) (x : Stepping σ ε α) (s : σ) :
    (f <$> x) s = (x s).map fun r => (f r.1, r.2) := by
  show (x s >>= fun r => pure (f r.1, r.2)) = _
  cases x s <;> rfl

/-- A sequence goes on from where its first part stopped. -/
theorem bind_apply (x : Stepping σ ε α) (f : α → Stepping σ ε β) (s : σ) :
    (x >>= f) s = (x s).bind fun r => f r.1 r.2 := rfl

/-- A sequence whose first part succeeds does what its second part does from there. -/
theorem bind_of_ok {x : Stepping σ ε α} {s t : σ} {a : α} (first : x s = .ok (a, t))
    (f : α → Stepping σ ε β) : (x >>= f) s = f a t := by
  rw [bind_apply, first]
  rfl

/-- A sequence whose first part fails fails in the same way. -/
theorem bind_of_error {x : Stepping σ ε α} {s : σ} {e : ε} (first : x s = .error e)
    (f : α → Stepping σ ε β) : (x >>= f) s = .error e := by
  rw [bind_apply, first]
  rfl

/-- A sequence succeeds exactly when both parts do, one after the other. -/
theorem bind_eq_ok {x : Stepping σ ε α} {f : α → Stepping σ ε β} {s u : σ} {b : β} :
    (x >>= f) s = .ok (b, u) ↔ ∃ a t, x s = .ok (a, t) ∧ f a t = .ok (b, u) := by
  constructor
  · intro h
    rw [bind_apply] at h
    cases first : x s with
    | error e =>
      rw [first] at h
      cases h
    | ok r =>
      rw [first] at h
      exact ⟨r.1, r.2, rfl, h⟩
  · rintro ⟨a, t, first, second⟩
    rw [bind_of_ok first]
    exact second

/-- A sequence fails exactly when one of its parts does, the first before the second. -/
theorem bind_eq_error {x : Stepping σ ε α} {f : α → Stepping σ ε β} {s : σ} {e : ε} :
    (x >>= f) s = .error e ↔
      x s = .error e ∨ ∃ a t, x s = .ok (a, t) ∧ f a t = .error e := by
  rw [bind_apply]
  cases first : x s with
  | error e' =>
    constructor
    · intro h
      cases h
      exact .inl rfl
    · rintro (h | ⟨a, t, h, -⟩)
      · cases h
        rfl
      · cases h
  | ok r =>
    constructor
    · intro h
      exact .inr ⟨r.1, r.2, rfl, h⟩
    · rintro (h | ⟨a, t, h, second⟩)
      · cases h
      · cases h
        exact second

/-- A mapped step succeeds exactly when the step does. -/
theorem map_eq_ok {x : Stepping σ ε α} {f : α → β} {s t : σ} {b : β} :
    (f <$> x) s = .ok (b, t) ↔ ∃ a, x s = .ok (a, t) ∧ b = f a := by
  rw [map_apply]
  cases x s with
  | error e => simp [Except.map]
  | ok r =>
    obtain ⟨a, u⟩ := r
    simp only [Except.map, Except.ok.injEq, Prod.mk.injEq]
    constructor
    · rintro ⟨rfl, rfl⟩
      exact ⟨a, ⟨rfl, rfl⟩, rfl⟩
    · rintro ⟨a', ⟨rfl, rfl⟩, rfl⟩
      exact ⟨rfl, rfl⟩

end AvroRegistry.Run
