import AvroRegistry.Proofs.Registry.Gate

/-!
# Registering under a weaker mode

Two registries that know the same but for their modes enroll a schema alike: the same id, the same
schemas, the same versions (`Sound.enroll_remoded`). So a registration that succeeds under the mode
in effect would have succeeded under every weaker one, with the same outcome
(`Reachable.register_remoded`). That is one half of what the strength of modes comes to; the other
half is about verdicts, and `modes_by_strength` puts them together.
-/

namespace AvroRegistry.Registry

open Compatibility (Mode checkCompatibility isCompatible numbered turned)

section

variable {α : Type} {default other : Mode} {r r' r₁ : Registry} {scope : Scope}
  {candidate : Schema.Canonical} {subject schema : Json} {part : Argument Part} {id : Int}

/-! ## Enrolling -/

/-- The ids and numbers that a registry with a file has given out are words. -/
theorem Sound.words (sound : r.Sound default) (backed : r.storage.isSome = true) :
    (∀ e ∈ r.schemas.entries, isWord e.id = true) ∧
      ∀ row ∈ r.versions.rows, isWord row.number = true := by
  obtain ⟨handle, same⟩ := Option.isSome_iff_exists.1 backed
  obtain ⟨tables, -, holds⟩ := (sound.file handle same).tables
  exact ⟨holds.ids, holds.numbers⟩

/-- A change that one of two registries makes is made by the other one, if the numbers that it gives
out are words for both. -/
theorem Commits.remoded {step : Step Registry α} {a b : α} {after after' : Registry} {words : Prop}
    (commits : Commits default step r a after words)
    (commits' : Commits other step r' a after' words) (file : r'.storage.isSome = r.storage.isSome)
    (given : ∀ file, file.isSome = true → (after.withFile file).Sound default → words)
    (same : after'.schemas = after.schemas) (same' : after'.versions = after.versions)
    (ok : step.outcome r = (.ok b, r₁)) :
    ∃ r₁', step.outcome r' = (.ok b, r₁') ∧ Remoded r₁ r₁' := by
  rcases commits with ⟨file₁, files₁, made, sound⟩ | ⟨-, -, _, -, -, -, refused⟩
  · cases made.symm.trans ok
    rcases commits' with ⟨file₂, files₂, made', -⟩ | ⟨backed, long, -⟩
    · exact ⟨_, made', same, same', files₂.trans (file.trans files₁.symm)⟩
    · exact absurd (given file₁ (files₁.trans (file.symm.trans backed)) sound) long
  · cases refused.symm.trans ok

/-- Registries that differ in their modes only enroll a schema alike. -/
theorem Sound.enroll_remoded (sound : r.Sound default) (sound' : r'.Sound other)
    (remoded : Remoded r r') (unheld : r.live? scope candidate.fingerprint = none)
    (ok : (enroll scope candidate).outcome r = (.ok id, r₁)) :
    ∃ r₁', (enroll scope candidate).outcome r' = (.ok id, r₁') ∧ Remoded r₁ r₁' := by
  have unheld' := (remoded.live? scope candidate.fingerprint).trans unheld
  cases known : r.schemas.withFingerprint? (.str candidate.fingerprint) with
  | some e =>
    have known' := known
    rw [← remoded.schemas] at known'
    have commits' := enroll_known sound' known' unheld'
    rw [remoded.versions] at commits'
    refine (enroll_known sound known unheld).remoded commits' remoded.file ?_ remoded.schemas rfl ok
    intro file backed after
    exact (after.words backed).2 _ (List.mem_append_right _ List.mem_cons_self)
  | none =>
    have known' := known
    rw [← remoded.schemas] at known'
    have commits' := enroll_new sound' scope known'
    rw [remoded.versions, remoded.schemas] at commits'
    refine (enroll_new sound scope known).remoded commits' remoded.file ?_ rfl rfl ok
    intro file backed after
    exact ⟨(after.words backed).1 _ (List.mem_append_right _ List.mem_cons_self),
      (after.words backed).2 _ (List.mem_append_right _ List.mem_cons_self)⟩

/-! ## Registering -/

/-- What is registered under a mode can be registered under every weaker one, with the same id and
as the same version. -/
theorem Sound.register_remoded (sound : r.Sound default) (sound' : r'.Sound other)
    (remoded : Remoded r r') (placed : scopeOf subject part = .ok scope)
    (weaker : (r'.config.effective scope).Weaker (r.config.effective scope))
    (ok : (register subject part schema).outcome r = (.ok id, r₁)) :
    ∃ r₁', (register subject part schema).outcome r' = (.ok id, r₁') ∧ Remoded r₁ r₁' := by
  rcases register_cases r subject part schema with
    ⟨failure, failed⟩ | ⟨scope', candidate, placed', accepted, held | ⟨admits, enrolled⟩⟩
  · cases failed.symm.trans ok
  · obtain ⟨info, live, unchanged⟩ := held
    cases unchanged.symm.trans ok
    have live' := (remoded.live? scope' candidate.fingerprint).trans live
    exact ⟨r', register_live placed' accepted live', remoded⟩
  · cases placed.symm.trans placed'
    rw [register_admitted placed accepted (admits.weaken remoded weaker)]
    exact sound.enroll_remoded sound' remoded admits.unheld (enrolled.symm.trans ok)

/-- Setting the mode of a scope sets it and changes nothing else. -/
theorem Sound.setModeOf_remoded (sound : r.Sound default)
    (placed : scopeOf subject part = .ok scope) (mode : Mode) :
    ∃ r', (setModeOf subject part (.typed mode)).outcome r = (.ok mode, r') ∧
      r'.Sound default ∧ Remoded r r' ∧ r'.config.effective scope = mode := by
  have parsed : parseMode (.typed mode) = .ok mode := rfl
  unfold setModeOf
  rw [settle_ok_outcome placed]
  rcases setOverride_commits sound scope parsed with ⟨file, files, made, after⟩ | ⟨-, never, -⟩
  · refine ⟨_, made, after, ⟨rfl, rfl, files⟩, ?_⟩
    show ((r.config.withOverride scope mode).override? scope).getD _ = mode
    rw [Config.override?_withOverride, if_pos rfl, Option.getD_some]
  · exact absurd trivial never

end

/-! ## The strength of modes -/

/-- Modes are ordered by strength. A full mode accepts what both modes of one direction accept, and
a transitive mode what the mode on the latest version accepts against each earlier schema alone. The
violations of one direction are those of the other with the two schemas changed about; those of a
transitive mode are those against each earlier schema alone, tagged with its position. And what can
be registered under a mode can be registered under every weaker one, from a registry that differs in
its modes only, and from the one that setting the weaker mode leads to: the id is the same, and the
schemas and versions afterwards are. -/
theorem modes_by_strength :
    (∀ (candidate : Json) (references : List Json),
      (isCompatible candidate references .full = .ok true ↔
        isCompatible candidate references .backward = .ok true ∧
          isCompatible candidate references .forward = .ok true) ∧
      (isCompatible candidate references .fullTransitive = .ok true ↔
        isCompatible candidate references .backwardTransitive = .ok true ∧
          isCompatible candidate references .forwardTransitive = .ok true) ∧
      (∀ mode : Mode, isCompatible candidate references mode.overAll = .ok true ↔
        ∀ reference ∈ references, isCompatible candidate [reference] mode = .ok true) ∧
      ∀ mode : Mode, mode.isTransitive = true →
        checkCompatibility candidate references mode =
          (((List.range references.length).zip references).mapM fun t =>
            (checkCompatibility candidate [t.2] mode).map (numbered t.1)).map List.flatten) ∧
    (∀ candidate reference : Json,
      checkCompatibility candidate [reference] .forward =
        (checkCompatibility reference [candidate] .backward).map (turned .forward)) ∧
    ∀ {default : Mode} {r r₁ : Registry} {subject schema : Json} {part : Argument Part}
        {scope : Scope} {id : Int} {weaker : Mode}, Reachable default r →
      scopeOf subject part = .ok scope →
      (register subject part schema).outcome r = (.ok id, r₁) →
      weaker.Weaker (r.config.effective scope) →
        (∀ other r', Reachable other r' → Remoded r r' → r'.config.effective scope = weaker →
          ∃ r₁', (register subject part schema).outcome r' = (.ok id, r₁') ∧ Remoded r₁ r₁') ∧
        ∃ r' r₁', (setModeOf subject part (.typed weaker)).outcome r = (.ok weaker, r') ∧
          Remoded r r' ∧ r'.config.effective scope = weaker ∧
          (register subject part schema).outcome r' = (.ok id, r₁') ∧ Remoded r₁ r₁' := by
  refine ⟨fun candidate references => ⟨Compatibility.isCompatible_full_iff.1,
    Compatibility.isCompatible_full_iff.2, fun mode => Compatibility.isCompatible_overAll_iff mode,
    fun mode => Compatibility.checkCompatibility_eq_mapM⟩,
    fun candidate reference => Compatibility.checkCompatibility_forward, ?_⟩
  intro default r r₁ subject schema part scope id weaker reachable placed ok below
  have sound := reachable.sound
  constructor
  · intro other r' reachable' remoded effective
    subst effective
    exact sound.register_remoded reachable'.sound remoded placed below ok
  · obtain ⟨r', set, sound', remoded, effective⟩ := sound.setModeOf_remoded placed weaker
    subst effective
    obtain ⟨r₁', registered, same⟩ := sound.register_remoded sound' remoded placed below ok
    exact ⟨r', r₁', set, remoded, rfl, registered, same⟩

/-- Where ints are live, longs are registered under a transitive mode, and under the mode on the
latest version in the same way. -/
theorem widened_by_strength :
    Reachable .backwardTransitive
        (after (fresh .backwardTransitive none) (widened.take 1)) ∧
      Mode.Weaker .backward ((after (fresh .backwardTransitive none)
        (widened.take 1)).config.effective orders) ∧
      ∃ r' r₁ r₁',
        (register (.str "orders") (.typed .value) (.str "\"long\"")).outcome
          (after (fresh .backwardTransitive none) (widened.take 1)) = (.ok 2, r₁) ∧
        (setModeOf (.str "orders") (.typed .value) (.typed .backward)).outcome
          (after (fresh .backwardTransitive none) (widened.take 1)) = (.ok .backward, r') ∧
        (register (.str "orders") (.typed .value) (.str "\"long\"")).outcome r' = (.ok 2, r₁') ∧
        Remoded r₁ r₁' := by
  have reachable : Reachable .backwardTransitive
      (after (fresh .backwardTransitive none) (widened.take 1)) :=
    .perform _ (.memory .backwardTransitive)
  have placed : scopeOf (.str "orders") (.typed .value) = .ok orders := rfl
  have weaker : Mode.Weaker .backward ((after (fresh .backwardTransitive none)
      (widened.take 1)).config.effective orders) := by
    have effective : (after (fresh .backwardTransitive none)
        (widened.take 1)).config.effective orders = .backwardTransitive := by decide +kernel
    rw [effective]
    exact .single (.overAll .backward)
  have given : ((register (.str "orders") (.typed .value) (.str "\"long\"")).outcome
      (after (fresh .backwardTransitive none) (widened.take 1))).1.toOption = some 2 := by
    decide +kernel
  generalize after (fresh .backwardTransitive none) (widened.take 1) = r at *
  have ok := Step.outcome_of_gives given
  obtain ⟨-, r', r₁', set, -, -, registered, same⟩ :=
    modes_by_strength.2.2 reachable placed ok weaker
  exact ⟨reachable, weaker, r', _, r₁', ok, set, registered, same⟩

end AvroRegistry.Registry
