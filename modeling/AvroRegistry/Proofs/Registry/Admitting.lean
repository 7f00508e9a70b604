import AvroRegistry.Proofs.Compatibility.Strength
import AvroRegistry.Proofs.Registry.Registering

/-!
# What it takes to be admitted

A schema that no live version of a scope holds is admitted if it passes against each version that
the mode in effect looks at, as that version parses, in each direction that the mode checks
(`violations_eq_nil`). The versions are chosen twice, by the registry and then by the check, but the
second choice keeps all that the first one has picked.

So a schema that is admitted under a mode is admitted under every weaker one (`Admits.weaken`).
-/

namespace AvroRegistry.Registry

open Compatibility (Mode consulted checkCompatibility)

variable {r r' : Registry} {scope : Scope} {candidate : Schema.Canonical} {mode other : Mode}

/-! ## The versions that a mode looks at -/

theorem formsOf_cons_eq_ok {version : Version} {rest : List Version} {forms : List Json} :
    r.formsOf (version :: rest) = .ok forms ↔
      ∃ form others, r.formOf version = .ok form ∧ r.formsOf rest = .ok others ∧
        forms = form :: others := by
  rw [formsOf]
  cases r.formOf version with
  | error failure => simp
  | ok form =>
    cases r.formsOf rest with
    | error failure => simp
    | ok others => simp [eq_comm]

theorem length_formsOf {versions : List Version} {forms : List Json}
    (parsed : r.formsOf versions = .ok forms) : forms.length = versions.length := by
  induction versions generalizing forms with
  | nil =>
    cases parsed
    rfl
  | cons version rest ih =>
    obtain ⟨form, others, -, behind, rfl⟩ := formsOf_cons_eq_ok.1 parsed
    exact congrArg Nat.succ (ih behind)

/-- Versions parse to forms of some kind, all of them or one by one. -/
theorem formsOf_all {versions : List Version} {P : Json → Prop} :
    (∃ forms, r.formsOf versions = .ok forms ∧ ∀ form ∈ forms, P form) ↔
      ∀ version ∈ versions, ∃ form, r.formOf version = .ok form ∧ P form := by
  induction versions with
  | nil => exact iff_of_true ⟨[], rfl, by simp⟩ (by simp)
  | cons version rest ih =>
    rw [List.forall_mem_cons, ← ih]
    constructor
    · rintro ⟨_, parsed, all⟩
      obtain ⟨form, others, first, behind, rfl⟩ := formsOf_cons_eq_ok.1 parsed
      obtain ⟨here, later⟩ := List.forall_mem_cons.1 all
      exact ⟨⟨form, first, here⟩, others, behind, later⟩
    · rintro ⟨⟨form, first, here⟩, others, behind, later⟩
      exact ⟨form :: others, formsOf_cons_eq_ok.2 ⟨form, others, first, behind, rfl⟩,
        List.forall_mem_cons.2 ⟨here, later⟩⟩

/-- Of the versions that the registry has picked for a mode, the check looks at all. -/
theorem consulted_of_references {history : List Version} {forms : List Json}
    (length : forms.length = (references mode history).length) : consulted mode forms = forms := by
  unfold consulted
  split
  · rfl
  · next single =>
    rw [references, if_neg single, List.length_drop] at length
    rw [show forms.length - 1 = 0 by omega, List.drop_zero]

/-! ## Admission -/

/-- There are no violations if a schema passes, against each version that the mode looks at, in each
direction that the mode checks. -/
theorem violations_eq_nil {history : List Version} :
    r.violations candidate (references mode history) mode = .ok [] ↔
      ∀ version ∈ references mode history, ∃ form, r.formOf version = .ok form ∧
        ∀ direction, mode.checks direction = true →
          direction.check form candidate.value = .ok [] := by
  rw [← formsOf_all, violations]
  cases parsed : r.formsOf (references mode history) with
  | error failure => simp
  | ok forms =>
    have passes := @Compatibility.checkCompatibility_eq_nil candidate.value mode forms
    rw [consulted_of_references (length_formsOf parsed)] at passes
    simp only [Except.ok.injEq, exists_eq_left', ← passes]
    cases checkCompatibility candidate.value forms mode with
    | error b => simp
    | ok found => simp

/-- A schema that is admitted passes, against each live version that the mode in effect looks at, in
each direction that it checks. -/
theorem Admits.passes (admits : r.Admits scope candidate) :
    ∀ version ∈ references (r.config.effective scope) (r.versions.history scope),
      ∃ form, r.formOf version = .ok form ∧
        ∀ direction, (r.config.effective scope).checks direction = true →
          direction.check form candidate.value = .ok [] :=
  violations_eq_nil.1 admits.compatible

/-! ## Other modes -/

/-- Two registries differ in their modes only, and in how their files keep them. -/
structure Remoded (r r' : Registry) : Prop where
  schemas : r'.schemas = r.schemas
  versions : r'.versions = r.versions
  file : r'.storage.isSome = r.storage.isSome

theorem Remoded.live? (remoded : Remoded r r') (scope : Scope) (fingerprint : String) :
    r'.live? scope fingerprint = r.live? scope fingerprint := by
  unfold Registry.live?
  rw [remoded.schemas, remoded.versions]

theorem Remoded.formOf (remoded : Remoded r r') (version : Version) :
    r'.formOf version = r.formOf version := by
  unfold Registry.formOf Registry.schemaOf
  rw [remoded.schemas]

/-- A schema that is admitted under a mode is admitted under every weaker one. -/
theorem Admits.weaken (admits : r.Admits scope candidate) (remoded : Remoded r r')
    (weaker : (r'.config.effective scope).Weaker (r.config.effective scope)) :
    r'.Admits scope candidate := by
  have within := weaker.within
  refine ⟨(remoded.live? scope _).trans admits.unheld, violations_eq_nil.2 ?_⟩
  intro version mem
  rw [remoded.versions] at mem
  obtain ⟨form, parsed, passes⟩ := admits.passes version (within.consulted _ mem)
  refine ⟨form, (remoded.formOf version).trans parsed, fun direction checks => ?_⟩
  exact passes direction (within.checks direction checks)

end AvroRegistry.Registry
