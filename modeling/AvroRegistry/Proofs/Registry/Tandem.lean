import AvroRegistry.Proofs.Registry.Alike
import AvroRegistry.Proofs.Registry.Faults

/-!
# Two registries in tandem

A registry in memory and one that may have a file, both sound and knowing the same, carry out the
same step. Neither ends in an internal fault. They give the same result and know the same
afterwards; only a file can bring about another end, a breakdown, and then the registry in memory
has given out a number that is no word.

`Tandem` says this of a step for the one and a step for the other, which differ in what they have
looked up before. The lemmas follow the parts of which the operations are made.
-/

namespace AvroRegistry.Registry

open Compatibility (Mode)

/-- No number that a registry has given out is above a bound. -/
structure Within (bound : Int) (r : Registry) : Prop where
  id : r.schemas.lastId ≤ bound
  numbers : ∀ row ∈ r.versions.rows, row.number ≤ bound

/-- The numbers that a registry has given out are words. -/
structure Fits (r : Registry) : Prop where
  id : isWord r.schemas.lastId = true
  numbers : ∀ row ∈ r.versions.rows, isWord row.number = true

/-- No version of a registry is lost, though it may have been marked as deleted. -/
def Keeps (r r' : Registry) : Prop :=
  ∀ version ∈ r.versions.rows, ∃ version' ∈ r'.versions.rows,
    version'.scope = version.scope ∧ version'.number = version.number ∧
      version'.schemaId = version.schemaId

/-- A registry only gets more: it loses no version, and its ids and numbers go up, by one at
most. -/
structure Grows (r r' : Registry) : Prop where
  keeps : Keeps r r'
  fits : r'.Fits → r.Fits
  within : ∀ bound, r.Within bound → r'.Within (bound + 1)

/-- A registry in memory and one that may have a file, which are sound and know the same. -/
structure Together (default : Mode) (m b : Registry) : Prop where
  memory : m.storage = none
  left : m.Sound default
  right : b.Sound default
  alike : Alike m b

/-- A step for the registry in memory and one for the other come to the same: neither ends in an
internal fault, and they give the same and leave the registries knowing the same. Otherwise the
other registry has a file and breaks down, and a number that was given out in memory is no word. -/
def Tandem {α : Type} (default : Mode) (m b : Registry) (x y : Step Registry α) : Prop :=
  ∃ result m' b', x.outcome m = (result, m') ∧ ¬ Internal result ∧ Together default m' m' ∧
    Grows m m' ∧ b'.storage.isSome = b.storage.isSome ∧
    ((y.outcome b = (result, b') ∧ Together default m' b') ∨
      (b.storage.isSome = true ∧ ¬ m'.Fits ∧ b'.Sound default ∧ b'.versions = b.versions ∧
        y.outcome b = (.error (.breakdown cellOverflow), b')))

section

variable {α β : Type} {default : Mode} {m b : Registry} {x y : Step Registry α}

theorem Together.self (together : Together default m b) : Together default m m :=
  ⟨together.memory, together.left, together.left, Alike.refl m⟩

theorem Keeps.of_eq {r r' : Registry} (same : r'.versions = r.versions) : Keeps r r' :=
  fun version known => ⟨version, same ▸ known, rfl, rfl, rfl⟩

/-- Registries with the same versions in each scope lose the same. -/
theorem Keeps.alike {m' b' : Registry} (keeps : Keeps m m') (before : Alike m b)
    (after : Alike m' b') : Keeps b b' := by
  intro version known
  have listed : version ∈ m.versions.ofScope version.scope := by
    rw [← before.versions]
    exact Versions.mem_ofScope.2 ⟨known, rfl⟩
  obtain ⟨version', known', same⟩ := keeps version (Versions.mem_ofScope.1 listed).1
  have listed' : version' ∈ b'.versions.ofScope version'.scope := by
    rw [after.versions]
    exact Versions.mem_ofScope.2 ⟨known', rfl⟩
  exact ⟨version', (Versions.mem_ofScope.1 listed').1, same⟩

theorem Within.succ {r : Registry} {bound : Int} (within : r.Within bound) :
    r.Within (bound + 1) :=
  ⟨Int.le_add_one within.id, fun row mem => Int.le_add_one (within.numbers row mem)⟩

theorem Grows.refl (r : Registry) : Grows r r :=
  ⟨.of_eq rfl, id, fun _ within => within.succ⟩

/-! ## Parts of steps -/

/-- Steps that change nothing and give the same are in tandem. -/
theorem Tandem.unchanged (together : Together default m b) {result : Except Failure α}
    (proper : ¬ Internal result) (first : x.outcome m = (result, m))
    (second : y.outcome b = (result, b)) : Tandem default m b x y :=
  ⟨result, m, b, first, proper, together.self, Grows.refl m, rfl, .inl ⟨second, together⟩⟩

theorem Tandem.pure (together : Together default m b) (a : α) :
    Tandem default m b (pure a) (pure a) :=
  .unchanged together (not_internal_ok a) (Step.outcome_pure a m) (Step.outcome_pure a b)

theorem Tandem.refuse (together : Together default m b) {f : Fault}
    (other : ∀ message cause, f ≠ .internal message cause) :
    Tandem default m b (Step.refuse f : Step Registry α) (Step.refuse f) :=
  .unchanged together (not_internal_fault other) (Step.outcome_refuse f m) (Step.outcome_refuse f b)

/-- A condition that is the same for both is asked for before both go on. -/
theorem Tandem.unless (together : Together default m b) (c : Prop) [Decidable c] {f : Fault}
    (other : ∀ message cause, f ≠ .internal message cause) (next : Tandem default m b x y) :
    Tandem default m b (if c then Step.refuse f >>= fun _ : PUnit => x else x)
      (if c then Step.refuse f >>= fun _ : PUnit => y else y) := by
  split
  · refine .unchanged together (not_internal_fault other) ?_ ?_
    · exact Step.bind_of_error (Step.outcome_refuse f m) _
    · exact Step.bind_of_error (Step.outcome_refuse f b) _
  · exact next

theorem Tandem.settle (together : Together default m b) {computed : Except Failure α}
    (proper : ¬ Internal computed) : Tandem default m b (settle computed) (settle computed) := by
  cases computed with
  | ok a => exact .pure together a
  | error f =>
    exact .unchanged together proper (Step.outcome_throw f m) (Step.outcome_throw f b)

/-- Steps that look at what they start from go on with it. -/
theorem Tandem.get_bind {f g : Registry → Step Registry α}
    (tandem : Tandem default m b (f m) (g b)) : Tandem default m b (get >>= f) (get >>= g) := tandem

/-- Steps in tandem stay so if afterwards both only look at what has become of them. -/
theorem Tandem.look (tandem : Tandem default m b x y) {f g : α → Step Registry β}
    (next : ∀ a m' b', Together default m' b' →
      ∃ c, (f a).outcome m' = (.ok c, m') ∧ (g a).outcome b' = (.ok c, b')) :
    Tandem default m b (x >>= f) (y >>= g) := by
  obtain ⟨result, m', b', first, proper, self, grows, files, second⟩ := tandem
  cases result with
  | error e =>
    refine ⟨.error e, m', b', Step.bind_of_error first f, fun h => proper h.of_error, self, grows,
      files, ?_⟩
    rcases second with ⟨second, together⟩ | ⟨file, long, sound, same, second⟩
    · exact .inl ⟨Step.bind_of_error second g, together⟩
    · exact .inr ⟨file, long, sound, same, Step.bind_of_error second g⟩
  | ok a =>
    rcases second with ⟨second, together⟩ | ⟨file, long, sound, same, second⟩
    · obtain ⟨c, looked, looked'⟩ := next a m' b' together
      exact ⟨.ok c, m', b', (Step.bind_of_ok first f).trans looked, not_internal_ok c, self, grows,
        files, .inl ⟨(Step.bind_of_ok second g).trans looked', together⟩⟩
    · -- The registry in memory goes on alone.
      obtain ⟨c, looked, -⟩ := next a m' m' self
      exact ⟨.ok c, m', b', (Step.bind_of_ok first f).trans looked, not_internal_ok c, self, grows,
        files, .inr ⟨file, long, sound, same, Step.bind_of_error second g⟩⟩

/-- What is worked out from the arguments alone is the same for both. -/
theorem Tandem.settle_bind (together : Together default m b) {computed : Except Failure α}
    (proper : ¬ Internal computed) {f g : α → Step Registry β}
    (next : ∀ a, computed = .ok a → Tandem default m b (f a) (g a)) :
    Tandem default m b (Registry.settle computed >>= f) (Registry.settle computed >>= g) := by
  cases computed with
  | ok a => exact next a rfl
  | error e =>
    refine .unchanged together (fun h => proper h.of_error) ?_ ?_
    · exact Step.bind_of_error (Step.outcome_throw e m) f
    · exact Step.bind_of_error (Step.outcome_throw e b) g

theorem Tandem.map (tandem : Tandem default m b x y) (f : α → β) :
    Tandem default m b (do return f (← x)) (do return f (← y)) :=
  tandem.look fun a m' b' _ => ⟨f a, Step.outcome_pure _ m', Step.outcome_pure _ b'⟩

/-- The same change on both sides is made in tandem. -/
theorem Tandem.of_commits (together : Together default m b) {a : α} {m' b' : Registry}
    {words words' : Prop} (first : Commits default x m a m' words)
    (second : Commits default y b a b' words') (alike : Alike m' b') (grows : Grows m m')
    (word : m'.Fits → words') : Tandem default m b x y := by
  rcases first with ⟨file, memory, first, left⟩ | ⟨file, -, -⟩
  · rw [together.memory] at memory
    have none : file = none := by simpa using memory
    have self : Together default (m'.withFile file) (m'.withFile file) :=
      ⟨none, left, left, Alike.refl _⟩
    have grows' : Grows m (m'.withFile file) :=
      ⟨grows.keeps, fun fits => grows.fits ⟨fits.id, fits.numbers⟩, fun bound within =>
        ⟨(grows.within bound within).id, (grows.within bound within).numbers⟩⟩
    rcases second with
      ⟨file', files, second, right⟩ | ⟨file', long, r', files, right, same, second⟩
    · exact ⟨.ok a, m'.withFile file, b'.withFile file', first, not_internal_ok a, self, grows',
        files, .inl ⟨second, none, left, right, alike.withFile file file'⟩⟩
    · exact ⟨.ok a, m'.withFile file, r', first, not_internal_ok a, self, grows',
        files.trans file'.symm, .inr ⟨file', fun fits => long (word ⟨fits.id, fits.numbers⟩), right,
          same, second⟩⟩
  · rw [together.memory] at file
    cases file

end

end AvroRegistry.Registry
