import AvroRegistry.Proofs.Registry.Histories
import AvroRegistry.Proofs.Registry.Rebuilt

/-!
# Versions that stand

Only two operations take a version away, and both say so: they answer with the numbers that they
have deleted (`Deed.Deletes`). Every other operation leaves the versions as they are or appends one
(`Sound.perform_reissues`), and opening a registry again gives every scope its versions back. So a
live version stays live along every history that does not delete it (`Run.stands`).
-/

namespace AvroRegistry

open Compatibility (Mode)

/-- A deed deletes a version: by its number, or with all of its scope. -/
inductive Deed.Deletes (scope : Scope) (n : Int) : Deed → Prop where
  | version {subject version : Json} {part : Argument Part}
      (placed : Registry.scopeOf subject part = .ok scope) :
      Deletes scope n (.performed (.deleteVersion subject part version) (.ok (.number n)))
  | subject {subject : Json} {part : Argument Part} {numbers : List Int}
      (placed : Registry.scopeOf subject part = .ok scope) (listed : n ∈ numbers) :
      Deletes scope n (.performed (.deleteSubject subject part) (.ok (.numbers numbers)))

namespace Registry

section

variable {default : Mode} {start r r' : Registry} {history : List Deed} {deed : Deed}
  {scope : Scope} {subject schema : Json} {part : Argument Part}

/-! ## Versions stand -/

/-- What an operation with an answer makes of the versions: it leaves them, appends one, or marks
those that it deletes. -/
inductive Reissues (v : Versions) (op : Operation) (answer : Except Failure Result) :
    Versions → Prop where
  | kept : Reissues v op answer v
  | added (version : Version) : Reissues v op answer (v.add version)
  | marked {marks : Scope} {numbers : List Int}
      (deletes : ∀ n ∈ numbers, Deed.Deletes marks n (.performed op answer)) :
      Reissues v op answer (v.mark marks numbers)

/-- A step with a result of some kind makes of the versions what an operation does. -/
def Reissued {α : Type} (r : Registry) (op : Operation) (step : Step Registry α) (f : α → Result) :
    Prop :=
  Reissues r.versions op ((step.outcome r).1.map f) (step.outcome r).2.versions

section

variable {α β : Type} {op : Operation} {step : Step Registry α} {f : α → Result}

theorem Reissued.reissues (reissued : Reissued r op step f)
    (same : perform op = do return f (← step)) :
    Reissues r.versions op ((perform op).outcome r).1 ((perform op).outcome r).2.versions := by
  rw [same, Step.outcome_map]
  exact reissued

theorem reissued_of_eq (same : (step.outcome r).2.versions = r.versions) :
    Reissued r op step f := by
  unfold Reissued
  rw [same]
  exact .kept

theorem reissued_of_looks (looks : step.Looks r) : Reissued r op step f :=
  reissued_of_eq (congrArg versions looks)

theorem reissued_settle_bind {computed : Except Failure β} {next : β → Step Registry α}
    (rest : ∀ b, computed = .ok b → Reissued r op (next b) f) :
    Reissued r op (settle computed >>= next) f := by
  cases computed with
  | ok b => exact rest b rfl
  | error failure => exact .kept

/-- A change that is never refused deletes the versions that it marks. -/
theorem reissued_of_commits {a : α} {marks : Scope} {numbers : List Int}
    (commits : Commits default step r a
      { r with versions := r.versions.mark marks numbers } True)
    (deletes : ∀ n ∈ numbers, Deed.Deletes marks n (.performed op (.ok (f a)))) :
    Reissued r op step f := by
  rcases commits with ⟨file, -, made, -⟩ | ⟨-, never, -⟩
  · unfold Reissued
    rw [made]
    exact .marked deletes
  · exact absurd trivial never

end

theorem Sound.reissued_deleteVersion (sound : r.Sound default) (version : Json) :
    Reissued r (.deleteVersion subject part version) (deleteVersion subject part version)
      Result.number := by
  refine reissued_settle_bind fun scope placed => reissued_settle_bind fun selector _ => ?_
  cases got : r.versions.get scope selector with
  | error failure =>
    refine reissued_of_eq ?_
    rw [onVersions_outcome, delete_outcome, got]
  | ok found =>
    refine reissued_of_commits (delete_commits sound got) fun n listed => ?_
    rw [List.mem_singleton.1 listed]
    exact .version placed

theorem Sound.reissued_deleteSubject (sound : r.Sound default) :
    Reissued r (.deleteSubject subject part) (deleteSubject subject part) Result.numbers := by
  refine reissued_settle_bind fun scope placed => ?_
  cases live : (r.versions.history scope).map (·.number) with
  | nil =>
    refine reissued_of_eq ?_
    rw [onVersions_outcome, deleteAll_outcome, live]
  | cons n rest =>
    refine reissued_of_commits (deleteAll_commits sound live (List.cons_ne_nil n rest)) ?_
    exact fun m listed => .subject placed listed

theorem Sound.reissued_register (sound : r.Sound default) :
    Reissues r.versions (.register subject part schema)
      ((Registry.perform (.register subject part schema)).outcome r).1
      ((Registry.perform (.register subject part schema)).outcome r).2.versions := by
  have effect := sound.perform_effect (.register subject part schema)
  generalize (Registry.perform (.register subject part schema)).outcome r = outcome at effect ⊢
  obtain ⟨answer, after⟩ := outcome
  cases effect with
  | appended => exact .added _
  | stored => exact .added _
  | deleted other => cases other
  | _ => exact .kept

theorem reissued_clearModeOf :
    Reissued r (.clearModeOf subject part) (clearModeOf subject part) Result.mode := by
  refine reissued_settle_bind fun scope _ => reissued_of_eq ?_
  have same : ((onConfig (Config.clearOverride scope)).outcome r).2.versions = r.versions := rfl
  cases cleared : (onConfig (Config.clearOverride scope)).outcome r with
  | mk answer after =>
    rw [cleared] at same
    cases answer with
    | ok _ =>
      rw [Step.bind_of_ok cleared]
      exact same
    | error failure =>
      rw [Step.bind_of_error cleared]
      exact same

/-- Every operation leaves the versions, appends one, or marks those that it deletes. -/
theorem Sound.perform_reissues (sound : r.Sound default) (op : Operation) :
    Reissues r.versions op ((Registry.perform op).outcome r).1
      ((Registry.perform op).outcome r).2.versions := by
  cases op with
  | register subject part schema => exact sound.reissued_register
  | deleteVersion subject part version =>
    exact (sound.reissued_deleteVersion version).reissues rfl
  | deleteSubject subject part => exact sound.reissued_deleteSubject.reissues rfl
  | check subject part schema =>
    exact (reissued_of_looks (looks_check subject part r schema)).reissues rfl
  | test subject part schema version =>
    exact (reissued_of_looks (looks_test subject part r schema version)).reissues rfl
  | versionNumbers subject part =>
    exact (reissued_of_looks (looks_versionNumbers subject part r)).reissues rfl
  | schemaById id => exact (reissued_of_looks (looks_schemaById r id)).reissues rfl
  | schemaAt subject part version =>
    exact (reissued_of_looks (looks_schemaAt subject part r version)).reissues rfl
  | modeOf subject part => exact (reissued_of_looks (looks_modeOf subject part r)).reissues rfl
  | subjects => exact .kept
  | globalMode => exact .kept
  | setGlobalMode mode =>
    have same : Reissued r (.setGlobalMode mode) (setGlobalMode mode) Result.mode :=
      reissued_of_eq rfl
    exact same.reissues rfl
  | setModeOf subject part mode =>
    have same : Reissued r (.setModeOf subject part mode) (setModeOf subject part mode)
        Result.mode := reissued_settle_bind fun scope _ => reissued_of_eq rfl
    exact same.reissues rfl
  | clearModeOf subject part => exact reissued_clearModeOf.reissues rfl

/-- A version stands until a deed deletes it. -/
theorem Does.stands (does : Does r deed r') (sound : r.Sound default) {version : Version}
    (live : version ∈ r.versions.history scope) (spared : ¬ deed.Deletes scope version.number) :
    version ∈ r'.versions.history scope := by
  cases does with
  | reopen backed opening =>
    obtain ⟨w, d, opened, opening', -, -, -, scopes, -⟩ :=
      (sound.file _ backed).reopened sound.schemas sound.versions _
    cases opening'.symm.trans opening
    rw [Versions.history_congr (scopes scope)]
    exact live
  | perform op =>
    obtain ⟨known, placed, standing⟩ := Versions.mem_history.1 live
    have reissues := sound.perform_reissues op
    generalize ((Registry.perform op).outcome r).2.versions = after at reissues ⊢
    cases reissues with
    | kept => exact live
    | added other => exact Versions.mem_history.2 ⟨List.mem_append_left _ known, placed, standing⟩
    | marked deletes =>
      refine Versions.mem_history.2 ⟨?_, placed, standing⟩
      rw [Versions.mark_rows]
      refine List.mem_map.2 ⟨version, known, if_neg ?_⟩
      rintro ⟨rfl, listed⟩
      exact spared (placed ▸ deletes _ listed)

theorem Run.stands (run : Run r history r') (reachable : Reachable default r) {version : Version}
    (live : version ∈ r.versions.history scope)
    (spared : ∀ deed ∈ history, ¬ deed.Deletes scope version.number) :
    version ∈ r'.versions.history scope := by
  induction run with
  | start => exact live
  | step before does ih =>
    obtain ⟨other, between⟩ := before.reachable reachable
    have standing := ih fun deed mem => spared deed (List.mem_append_left _ mem)
    exact does.stands between.sound standing (spared _ (List.mem_append_right _ List.mem_cons_self))

end

end Registry

end AvroRegistry
