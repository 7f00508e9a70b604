import AvroRegistry.Proofs.Registry.Effects

/-!
# Histories

A history is what has happened to a registry since it was opened for the first time: the operations
it was asked for, each with its answer, and when it was opened again, each time over some default.
`Run` says that a history leads from one registry to another one. It leads to one only, and through
every registry to which a first part of it leads; so what holds of all runs holds at all moments.
-/

namespace AvroRegistry

open Compatibility (Mode)

/-- Something that has happened to a registry. -/
inductive Deed where
  /-- An operation was carried out, with this answer. -/
  | performed (op : Operation) (answer : Except Failure Result)
  /-- The registry was thrown away and opened again on its file, over a default. -/
  | reopened (default : Mode)

namespace Registry

/-! ## Runs -/

/-- A registry from which histories begin: one in memory, or on a file without tables. -/
inductive Begins : Mode → Registry → Prop where
  | memory (default : Mode) : Begins default (fresh default none)
  | file {default : Mode} {handle : Storage} {r : Registry} {opened : Option Storage}
      (database : handle.volume = .database none) (unprepared : handle.prepared = false)
      (opening : (openWith default).outcome (some handle) = (.ok r, opened)) : Begins default r

/-- What a deed leaves of a registry. -/
inductive Does (r : Registry) : Deed → Registry → Prop where
  | perform (op : Operation) :
      Does r (.performed op ((Registry.perform op).outcome r).1) ((Registry.perform op).outcome r).2
  | reopen {default : Mode} {handle : Storage} {r' : Registry} {opened : Option Storage}
      (backed : r.storage = some handle)
      (opening : (openWith default).outcome (some handle.reopened) = (.ok r', opened)) :
      Does r (.reopened default) r'

/-- A history leads from one registry to another one. -/
inductive Run (start : Registry) : List Deed → Registry → Prop where
  | start : Run start [] start
  | step {history : List Deed} {deed : Deed} {r r' : Registry} (before : Run start history r)
      (does : Does r deed r') : Run start (history ++ [deed]) r'

section

variable {default : Mode} {start r r' : Registry} {history earlier later : List Deed} {deed : Deed}

theorem Begins.reachable (begins : Begins default r) : Reachable default r := by
  cases begins with
  | memory => exact .memory default
  | file database unprepared opening => exact .file database unprepared opening

theorem Does.reachable (does : Does r deed r') (reachable : Reachable default r) :
    ∃ default, Reachable default r' := by
  cases does with
  | perform op => exact ⟨default, reachable.perform op⟩
  | @reopen other _ _ _ backed opening => exact ⟨other, reachable.reopen backed opening⟩

theorem Run.reachable (run : Run start history r) (reachable : Reachable default start) :
    ∃ default, Reachable default r := by
  induction run with
  | start => exact ⟨default, reachable⟩
  | step before does ih =>
    obtain ⟨other, between⟩ := ih
    exact does.reachable between

/-- A registry that can come about does so by some history. -/
theorem Reachable.run (reachable : Reachable default r) :
    ∃ other start history, Begins other start ∧ Run start history r := by
  induction reachable with
  | memory default => exact ⟨default, _, [], .memory default, .start⟩
  | file database unprepared opening =>
    exact ⟨_, _, [], .file database unprepared opening, .start⟩
  | perform op _ ih =>
    obtain ⟨other, start, history, begins, run⟩ := ih
    exact ⟨other, start, _, begins, run.step (.perform op)⟩
  | reopen _ backed opening ih =>
    obtain ⟨other, start, history, begins, run⟩ := ih
    exact ⟨other, start, _, begins, run.step (.reopen backed opening)⟩

theorem Does.unique (does : Does r deed r') {r'' : Registry} (again : Does r deed r'') :
    r' = r'' := by
  cases does with
  | perform op =>
    generalize answered : ((Registry.perform op).outcome r).1 = answer at again
    cases again with
    | perform => rfl
  | reopen backed opening =>
    cases again with
    | reopen backed' opening' =>
      rw [backed] at backed'
      cases backed'
      rw [opening] at opening'
      cases opening'
      rfl

theorem Run.last (run : Run start (history ++ [deed]) r') :
    ∃ r, Run start history r ∧ Does r deed r' := by
  generalize whole : history ++ [deed] = deeds at run
  cases run with
  | start => exact absurd whole (List.append_ne_nil_of_right_ne_nil _ (List.cons_ne_nil _ _))
  | step before does =>
    obtain ⟨rfl, rfl⟩ := List.append_inj' whole rfl |>.imp_right List.singleton_inj.1
    exact ⟨_, before, does⟩

theorem Run.unique (run : Run start history r) (again : Run start history r') : r = r' := by
  induction run generalizing r' with
  | start =>
    generalize none : ([] : List Deed) = deeds at again
    cases again with
    | start => rfl
      | step => exact absurd none.symm (List.append_ne_nil_of_right_ne_nil _ (List.cons_ne_nil _ _))
  | step before does ih =>
    obtain ⟨between, before', does'⟩ := again.last
    cases ih before'
    exact does.unique does'

/-- A run of a history that is split goes through a run of its first part. -/
theorem Run.split (run : Run start history r) (whole : history = earlier ++ later) :
    ∃ between, Run start earlier between ∧ Run between later r := by
  induction run generalizing later with
  | start =>
    obtain ⟨rfl, rfl⟩ := List.append_eq_nil_iff.1 whole.symm
    exact ⟨start, .start, .start⟩
  | @step history deed r r' before does ih =>
    rcases List.eq_nil_or_concat later with rfl | ⟨front, last, rfl⟩
    · rw [List.append_nil] at whole
      exact ⟨r', whole ▸ .step before does, .start⟩
    · rw [List.concat_eq_append, ← List.append_assoc] at whole
      obtain ⟨same, rfl⟩ := List.append_inj' whole rfl |>.imp_right List.singleton_inj.1
      obtain ⟨between, first, rest⟩ := ih same
      exact ⟨between, first, List.concat_eq_append ▸ .step rest does⟩

end

end Registry

end AvroRegistry
