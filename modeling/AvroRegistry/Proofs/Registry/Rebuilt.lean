import AvroRegistry.Proofs.Registry.Reachable

/-!
# A registry that is rebuilt from its file

A registry with a file carries out operations, and between them it is thrown away and opened again
on the file, over the same default, as often as one likes. Nobody who only sees its answers can
tell: they are those of a registry in memory that is never opened again.

The two are in tandem all along. Opening the file again gives a registry that knows what the one
before knew, and so what the one in memory knows.

A column of a table holds integers of 64 bits, so this is so as long as the ids and numbers that are
given out fit. Those of a run are never above the number of its operations.
-/

namespace AvroRegistry

open Compatibility (Mode)

/-- What happens to a registry with a file: it carries out an operation, or it is thrown away and
opened again on the file. -/
inductive Event where
  | perform (op : Operation)
  | reopen

/-- The operations among events, in their order. -/
def Event.operations : List Event → List Operation
  | [] => []
  | .perform op :: rest => op :: operations rest
  | .reopen :: rest => operations rest

namespace Registry

/-! ## Runs -/

/-- The answers of a registry to operations, one after the other: a result, or a failure with all
that is said of it. -/
def answers (r : Registry) : List Operation → List (Except Failure Result)
  | [] => []
  | op :: rest =>
    ((Registry.perform op).outcome r).1 :: ((Registry.perform op).outcome r).2.answers rest

/-- The registry after operations. -/
def after (r : Registry) : List Operation → Registry
  | [] => r
  | op :: rest => ((Registry.perform op).outcome r).2.after rest

/-- The answers of a registry that is opened again, over a default, where events say so. Should it
not open, the failure is its last answer. -/
def answersThrough (default : Mode) (r : Registry) : List Event → List (Except Failure Result)
  | [] => []
  | .perform op :: rest =>
    ((Registry.perform op).outcome r).1 ::
      ((Registry.perform op).outcome r).2.answersThrough default rest
  | .reopen :: rest =>
    match (openWith default).outcome (r.storage.map Storage.reopened) with
    | (.ok r', _) => r'.answersThrough default rest
    | (.error f, _) => [.error f]

section

variable {default : Mode} {m b : Registry}

/-! ## Numbers along a run -/

/-- What an operation leaves in memory is in tandem with itself again, and no less than before. -/
theorem Together.perform_self (together : Together default m m) (op : Operation) :
    Together default ((Registry.perform op).outcome m).2 ((Registry.perform op).outcome m).2 ∧
      Grows m ((Registry.perform op).outcome m).2 := by
  obtain ⟨result, m', b', first, -, self, grows, -⟩ := perform_tandem together op
  rw [first]
  exact ⟨self, grows⟩

/-- If the numbers after a run fit, those before it did. -/
theorem Together.fits_of_after (ops : List Operation) :
    ∀ {m : Registry}, Together default m m → (m.after ops).Fits → m.Fits := by
  induction ops with
  | nil => exact fun _ fits => fits
  | cons op rest ih =>
    intro m together fits
    obtain ⟨next, grows⟩ := together.perform_self op
    exact grows.fits (ih next fits)

/-- A run gives out no number above a bound by more than the number of its operations. -/
theorem Together.within_after (ops : List Operation) :
    ∀ {m : Registry} {bound : Int}, Together default m m → m.Within bound →
      Together default (m.after ops) (m.after ops) ∧ (m.after ops).Within (bound + ops.length) := by
  induction ops with
  | nil =>
    intro m bound together within
    have same : bound + (([] : List Operation).length : Int) = bound := Int.add_zero bound
    rw [same]
    exact ⟨together, within⟩
  | cons op rest ih =>
    intro m bound together within
    obtain ⟨next, grows⟩ := together.perform_self op
    obtain ⟨last, below⟩ := ih next (grows.within bound within)
    rw [Int.add_assoc, Int.add_comm 1] at below
    rw [List.length_cons, Int.natCast_add_one]
    exact ⟨last, below⟩

theorem together_fresh (default : Mode) :
    Together default (fresh default none) (fresh default none) :=
  ⟨rfl, sound_fresh default, sound_fresh default, Alike.refl _⟩

/-- The numbers of a registry fit if none is above the positive words. -/
theorem Within.fits {r : Registry} {bound : Int} (within : r.Within bound)
    (sound : r.Sound default) (short : bound < 0x8000000000000000) : r.Fits := by
  have word : ∀ n : Int, 0 ≤ n → n ≤ bound → isWord n = true := by
    intro n nonneg le
    unfold isWord
    simp only [Bool.and_eq_true, decide_eq_true_eq]
    omega
  refine ⟨word _ sound.schemas.last_nonneg within.id, fun row mem => ?_⟩
  exact word _ (Int.le_of_lt (sound.versions.positive row mem)) (within.numbers row mem)

/-- The numbers of a run fit unless it has at least as many operations as there are positive words.
-/
theorem fits_of_length (default : Mode) {ops : List Operation}
    (short : (ops.length : Int) < 0x8000000000000000) :
    Fits (after (fresh default none) ops) := by
  have start : Within 0 (fresh default none) := ⟨Int.le_refl 0, nofun⟩
  obtain ⟨last, within⟩ := (together_fresh default).within_after ops start
  rw [Int.zero_add] at within
  exact within.fits last.left short

/-! ## Answers along a run -/

/-- Opening the file of a registry again leaves it in tandem with the one in memory. -/
theorem Together.reopened (together : Together default m b) {handle : Storage}
    (backed : b.storage = some handle) :
    ∃ b' opened, (openWith default).outcome (some handle.reopened) = (.ok b', some opened) ∧
      b'.storage = some opened ∧ Together default m b' := by
  obtain ⟨schemas, versions, file⟩ := together.right
  obtain ⟨w, d, opened, opening, holds, soundV, -, scopes, overrides, global⟩ :=
    (file handle backed).reopened schemas versions default
  have alike := together.alike
  refine ⟨⟨b.schemas, w, d, some opened⟩, opened, opening, rfl, together.memory, together.left,
    ⟨schemas, soundV, fun other same => ?_⟩, alike.schemas, fun scope => ?_, ?_, fun scope => ?_⟩
  · cases same
    exact holds
  · exact (scopes scope).trans (alike.versions scope)
  · exact (global rfl).trans alike.global
  · exact (overrides scope).trans (alike.overrides scope)

/-- Two registries in tandem, one of which has a file and is opened again now and then, give the
same answers. -/
theorem Together.answers (events : List Event) :
    ∀ {m b : Registry}, Together default m b → b.storage.isSome = true →
      (m.after (Event.operations events)).Fits →
      b.answersThrough default events = m.answers (Event.operations events) := by
  induction events with
  | nil => exact fun _ _ _ => rfl
  | cons event rest ih =>
    intro m b together backed fits
    cases event with
    | perform op =>
      obtain ⟨result, m', b', first, -, self, -, files, second⟩ := perform_tandem together op
      have left : m.answers (op :: Event.operations rest) =
          result :: m'.answers (Event.operations rest) := by
        rw [Registry.answers, first]
      have fits' : (m'.after (Event.operations rest)).Fits := by
        rw [Event.operations, after, first] at fits
        exact fits
      rcases second with ⟨second, together'⟩ | ⟨-, long, -⟩
      · rw [Event.operations, left, answersThrough, second]
        exact congrArg (result :: ·) (ih together' (files.trans backed) fits')
      · exact absurd (self.fits_of_after _ fits') long
    | reopen =>
      obtain ⟨handle, backed⟩ := Option.isSome_iff_exists.1 backed
      obtain ⟨b', opened, opening, backed', together'⟩ := together.reopened backed
      rw [answersThrough, backed, Option.map_some, opening]
      exact ih together' (by rw [backed', Option.isSome_some]) fits

/-- A registry opened on a new file, carrying out any operations and opened again on the file at any
points between them, answers what a registry in memory answers that carries out the same operations,
if the ids and numbers that it gives out are integers of 64 bits. -/
theorem answers_rebuilt (default : Mode) {handle : Storage}
    (database : handle.volume = .database none) (unprepared : handle.prepared = false)
    (events : List Event)
    (fits : Fits (after (fresh default none) (Event.operations events))) :
    ∃ r opened, (openWith default).outcome (some handle) = (.ok r, opened) ∧
      r.answersThrough default events =
        answers (fresh default none) (Event.operations events) := by
  refine ⟨_, _, (openWith_new database unprepared default).1, ?_⟩
  have together : Together default (fresh default none)
      (fresh default (some (handle.ready {}))) :=
    ⟨rfl, sound_fresh default, sound_opened database unprepared default,
      (Alike.refl (fresh default none)).withFile none (some (handle.ready {}))⟩
  exact together.answers events rfl fits

/-- A schema is registered and its version deleted, and the file is opened again after each. -/
def openedTwice : List Event :=
  [.perform (.register (.str "orders") (.typed .value) (.str "\"string\"")), .reopen,
    .perform (.deleteVersion (.str "orders") (.typed .value) (.str "latest")), .reopen,
    .perform (.schemaById (.int 1)), .perform .subjects]

theorem answers_openedTwice :
    Fits (after (fresh .full none) (Event.operations openedTwice)) ∧
      ∃ r opened, (openWith .full).outcome (some { path := "registry.db" }) = (.ok r, opened) ∧
        r.answersThrough .full openedTwice =
          answers (fresh .full none) (Event.operations openedTwice) := by
  have fits : Fits (after (fresh .full none) (Event.operations openedTwice)) :=
    fits_of_length .full (by decide)
  exact ⟨fits, answers_rebuilt .full rfl rfl openedTwice fits⟩

end

end Registry

end AvroRegistry
