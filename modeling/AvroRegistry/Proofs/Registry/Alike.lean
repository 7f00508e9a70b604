import AvroRegistry.Proofs.Registry.Changes
import AvroRegistry.Proofs.Sorting.Permuted
import AvroRegistry.Proofs.Store.Config

/-!
# Registries that know the same

What a registry answers depends on what it knows, not on how it keeps it: two indices may list the
scopes in different orders, and two stores of modes may have come to their overrides in different
ways. Two registries that know the same, one of which may have a file, find the same wherever they
look, and know the same again after the same change.
-/

namespace AvroRegistry

open Compatibility (Mode)

/-! ## The versions of a scope -/

namespace Versions

variable {v w : Versions} {scope : Scope}

section

variable (same : w.ofScope scope = v.ofScope scope)

include same

theorem history_congr : w.history scope = v.history scope := by
  unfold history
  rw [same]

theorem maxNumber_congr : w.maxNumber scope = v.maxNumber scope := by
  unfold maxNumber
  rw [same]

theorem holding?_congr (id : Json) : w.holding? scope id = v.holding? scope id := by
  unfold holding?
  rw [same]

theorem select?_congr (selector : Selector) :
    w.select? scope selector = v.select? scope selector := by
  cases selector with
  | latest =>
    unfold select?
    rw [history_congr same]
  | number n =>
    unfold select? withNumber?
    rw [same]

theorem get_congr (selector : Selector) : w.get scope selector = v.get scope selector := by
  unfold get
  rw [select?_congr same]

theorem liveNumbers_congr : w.liveNumbers scope = v.liveNumbers scope := by
  unfold liveNumbers
  rw [history_congr same]

end

theorem ofScope_add (v : Versions) (r : Version) (scope : Scope) :
    (v.add r).ofScope scope = v.ofScope scope ++ [r].filter fun r => r.scope == scope :=
  List.filter_append ..

theorem ofScope_mark (v : Versions) (marks : Scope) (numbers : List Int) (scope : Scope) :
    (v.mark marks numbers).ofScope scope = (v.ofScope scope).map (marked marks numbers) := by
  unfold ofScope
  rw [mark_rows, List.filter_map]
  congr 1
  refine List.filter_congr fun r _ => ?_
  show ((marked marks numbers r).scope == scope) = _
  rw [marked_scope]

theorem ofScope_next (v : Versions) (scope : Scope) (id : Int) :
    (v.add (v.next scope id)).ofScope scope = v.ofScope scope ++ [v.next scope id] := by
  rw [ofScope_add, List.filter_eq_self.2 fun r mem => ?_]
  rw [List.mem_singleton.1 mem]
  exact beq_self_eq_true scope

theorem maxNumber_next (v : Versions) (scope : Scope) (id : Int) :
    (v.add (v.next scope id)).maxNumber scope = v.maxNumber scope + 1 := by
  unfold maxNumber
  rw [ofScope_next, List.getLast?_concat]
  rfl

theorem history_next (v : Versions) (scope : Scope) (id : Int) :
    (v.add (v.next scope id)).history scope = v.history scope ++ [v.next scope id] := by
  unfold history
  rw [ofScope_next, List.filter_append]
  rfl

theorem maxNumber_mark (v : Versions) (marks : Scope) (numbers : List Int) (scope : Scope) :
    (v.mark marks numbers).maxNumber scope = v.maxNumber scope := by
  unfold maxNumber
  rw [ofScope_mark, List.getLast?_map]
  cases (v.ofScope scope).getLast? with
  | none => rfl
  | some r => exact marked_number numbers r

/-- No version is live in a scope all of whose live versions have been marked. -/
theorem history_marked {v : Versions} {scope : Scope} {numbers : List Int}
    (live : (v.history scope).map (·.number) = numbers) :
    (v.mark scope numbers).history scope = [] := by
  refine List.eq_nil_iff_forall_not_mem.2 fun r mem => ?_
  obtain ⟨known, same, alive⟩ := mem_history.1 mem
  rw [mark_rows] at known
  obtain ⟨old, listed, rfl⟩ := List.mem_map.1 known
  rw [marked_scope] at same
  have named : old.number ∈ numbers := by
    rw [← live]
    exact List.mem_map_of_mem (mem_history.2 ⟨listed, same, live_of_marked alive⟩)
  have marked : marked scope numbers old = { old with deleted := true } := if_pos ⟨same, named⟩
  rw [marked] at alive
  cases alive

/-! ## Scopes -/

theorem mem_scopesOf {rows : List Version} :
    scope ∈ scopesOf rows ↔ ∃ r ∈ rows, r.scope = scope := by
  induction rows with
  | nil => simp [scopesOf]
  | cons r rest ih =>
    rw [scopesOf]
    split
    · next listed =>
      have known : r.scope ∈ scopesOf rest := by simpa using listed
      rw [ih]
      constructor
      · rintro ⟨a, mem, here⟩
        exact ⟨a, List.mem_cons_of_mem _ mem, here⟩
      · rintro ⟨a, mem, here⟩
        rcases List.mem_cons.1 mem with rfl | later
        · exact ih.1 (here ▸ known)
        · exact ⟨a, later, here⟩
    · simp only [List.mem_cons, ih, exists_eq_or_imp]
      exact or_congr_left eq_comm

theorem nodup_scopesOf (rows : List Version) : (scopesOf rows).Nodup := by
  induction rows with
  | nil => exact List.nodup_nil
  | cons r rest ih =>
    rw [scopesOf]
    split
    · exact ih
    · next absent => exact List.nodup_cons.2 ⟨by simpa using absent, ih⟩

/-- A scope has live versions if its history is not empty. -/
theorem mem_liveScopes : scope ∈ v.liveScopes ↔ v.history scope ≠ [] := by
  unfold liveScopes
  rw [mem_scopesOf]
  constructor
  · rintro ⟨r, mem, here⟩
    obtain ⟨listed, live⟩ := List.mem_filter.1 mem
    exact List.ne_nil_of_mem (mem_history.2 ⟨listed, here, by simpa using live⟩)
  · intro some
    obtain ⟨r, mem⟩ := List.exists_mem_of_ne_nil _ some
    obtain ⟨listed, here, live⟩ := mem_history.1 mem
    exact ⟨r, List.mem_filter.2 ⟨listed, by simpa using live⟩, here⟩

/-- Two indices with the same versions in each scope have the same scopes with live versions, up to
their order. -/
theorem liveScopes_perm (same : ∀ scope, w.ofScope scope = v.ofScope scope) :
    w.liveScopes.Perm v.liveScopes := by
  refine (List.perm_ext_iff_of_nodup (nodup_scopesOf _) (nodup_scopesOf _)).2 fun scope => ?_
  show scope ∈ w.liveScopes ↔ scope ∈ v.liveScopes
  rw [mem_liveScopes, mem_liveScopes, history_congr (same scope)]

end Versions

/-! ## Knowing the same -/

namespace Registry

/-- Two registries know the same: the same schemas, the same versions in each scope and the same
modes. -/
structure Alike (m b : Registry) : Prop where
  schemas : b.schemas = m.schemas
  versions : ∀ scope, b.versions.ofScope scope = m.versions.ofScope scope
  global : b.config.global = m.config.global
  overrides : ∀ scope, b.config.override? scope = m.config.override? scope

theorem Alike.refl (r : Registry) : Alike r r := ⟨rfl, fun _ => rfl, rfl, fun _ => rfl⟩

variable {m b : Registry}

/-- What a registry knows does not depend on its file. -/
theorem Alike.withFile (alike : Alike m b) (file file' : Option Storage) :
    Alike (m.withFile file) (b.withFile file') :=
  ⟨alike.schemas, alike.versions, alike.global, alike.overrides⟩

/-! ## Looking -/

theorem Alike.effective (alike : Alike m b) (scope : Scope) :
    b.config.effective scope = m.config.effective scope := by
  unfold Config.effective
  rw [alike.overrides, alike.global]

theorem Alike.history (alike : Alike m b) (scope : Scope) :
    b.versions.history scope = m.versions.history scope :=
  Versions.history_congr (alike.versions scope)

theorem Alike.live? (alike : Alike m b) (scope : Scope) (fingerprint : String) :
    b.live? scope fingerprint = m.live? scope fingerprint := by
  unfold Registry.live?
  rw [alike.schemas]
  refine congrArg (Option.bind _) (funext fun schema => ?_)
  rw [Versions.holding?_congr (alike.versions scope)]

theorem Alike.schemaOf (alike : Alike m b) (version : Version) :
    b.schemaOf version = m.schemaOf version := by
  unfold Registry.schemaOf
  rw [alike.schemas]

theorem Alike.formsOf (alike : Alike m b) (versions : List Version) :
    b.formsOf versions = m.formsOf versions := by
  induction versions with
  | nil => rfl
  | cons version rest ih =>
    unfold Registry.formsOf Registry.formOf
    rw [alike.schemaOf, ih]

theorem Alike.violations (alike : Alike m b) (candidate : Schema.Canonical)
    (against : List Version) (mode : Mode) :
    b.violations candidate against mode = m.violations candidate against mode := by
  unfold Registry.violations
  rw [alike.formsOf]

theorem Alike.testedAgainst (alike : Alike m b) (scope : Scope) (selector : Selector)
    (mode : Mode) :
    b.testedAgainst scope selector mode = m.testedAgainst scope selector mode := by
  have got : ∀ selector, b.versions.get scope selector = m.versions.get scope selector :=
    Versions.get_congr (alike.versions scope)
  unfold Registry.testedAgainst
  simp only [alike.history, got]

theorem Alike.subjects (alike : Alike m b) :
    Json.sortTexts (b.versions.liveScopes.map Scope.render) =
      Json.sortTexts (m.versions.liveScopes.map Scope.render) :=
  Json.sortTexts_perm ((Versions.liveScopes_perm alike.versions).map _)

/-! ## Changing -/

theorem Alike.addSchema (alike : Alike m b) (canonical raw : String) :
    Alike { m with schemas := m.schemas.add (m.schemas.next canonical raw) }
      { b with schemas := b.schemas.add (b.schemas.next canonical raw) } where
  schemas := by
    show b.schemas.add (b.schemas.next canonical raw) = m.schemas.add (m.schemas.next canonical raw)
    rw [alike.schemas]
  versions := alike.versions
  global := alike.global
  overrides := alike.overrides

theorem Alike.addVersion (alike : Alike m b) (scope : Scope) (id : Int) :
    Alike { m with versions := m.versions.add (m.versions.next scope id) }
      { b with versions := b.versions.add (b.versions.next scope id) } where
  schemas := alike.schemas
  versions other := by
    have next : b.versions.next scope id = m.versions.next scope id := by
      unfold Versions.next
      rw [Versions.maxNumber_congr (alike.versions scope)]
    show (b.versions.add (b.versions.next scope id)).ofScope other =
      (m.versions.add (m.versions.next scope id)).ofScope other
    rw [next, Versions.ofScope_add, Versions.ofScope_add, alike.versions]
  global := alike.global
  overrides := alike.overrides

theorem Alike.mark (alike : Alike m b) (scope : Scope) (numbers : List Int) :
    Alike { m with versions := m.versions.mark scope numbers }
      { b with versions := b.versions.mark scope numbers } where
  schemas := alike.schemas
  versions other := by
    show (b.versions.mark scope numbers).ofScope other =
      (m.versions.mark scope numbers).ofScope other
    rw [Versions.ofScope_mark, Versions.ofScope_mark, alike.versions]
  global := alike.global
  overrides := alike.overrides

theorem Alike.setGlobal (alike : Alike m b) (mode : Mode) :
    Alike { m with config := { m.config with global := mode } }
      { b with config := { b.config with global := mode } } :=
  ⟨alike.schemas, alike.versions, rfl, alike.overrides⟩

theorem Alike.setOverride (alike : Alike m b) (scope : Scope) (mode : Mode) :
    Alike { m with config := m.config.withOverride scope mode }
      { b with config := b.config.withOverride scope mode } where
  schemas := alike.schemas
  versions := alike.versions
  global := alike.global
  overrides other := by
    show (b.config.withOverride scope mode).override? other =
      (m.config.withOverride scope mode).override? other
    rw [Config.override?_withOverride, Config.override?_withOverride, alike.overrides]

theorem Alike.clearOverride (alike : Alike m b) (scope : Scope) :
    Alike { m with config := m.config.without scope }
      { b with config := b.config.without scope } where
  schemas := alike.schemas
  versions := alike.versions
  global := alike.global
  overrides other := by
    show (b.config.without scope).override? other = (m.config.without scope).override? other
    rw [Config.override?_without, Config.override?_without, alike.overrides]

end Registry

end AvroRegistry
