import AvroRegistry.Proofs.Registry.Addressing
import AvroRegistry.Proofs.Registry.Spelled
import Mathlib.Logic.Relator

/-!
# Operations on a scope, side by side

Two registries in memory that agree on a scope carry out the same operation on that scope. They
answer alike: the same failure, or results that differ in ids and raw texts only, where the ids
name schemas with one canonical text (`Names`). And they agree on the scope again. An operation on
another scope leaves a registry in agreement with itself, as far as the scope goes.

Agreement needs to know that a schema which is found by its fingerprint has the text that was asked
for. `Filled` keeps track of the texts that a registry has stored, of which no two may have one
fingerprint.
-/

namespace AvroRegistry

open Compatibility (Mode)

/-! ## Operations and their scopes -/

/-- The scope of an operation, if it is one on a scope. -/
def Operation.scope? : Operation → Option Scope
  | .register subject part _ | .check subject part _ | .test subject part _ _
  | .versionNumbers subject part | .schemaAt subject part _ | .deleteVersion subject part _
  | .deleteSubject subject part | .modeOf subject part | .setModeOf subject part _
  | .clearModeOf subject part => (Registry.scopeOf subject part).toOption
  | .subjects | .schemaById _ | .globalMode | .setGlobalMode _ => none

/-- Whether an operation is one on a scope or on the global mode. -/
def Operation.concerns (scope : Scope) : Operation → Bool
  | .globalMode | .setGlobalMode _ => true
  | op => decide (op.scope? = some scope)

/-! ## Answers that are alike -/

/-- Two schemas with ids that stand for one another and one canonical text. -/
structure StoredSchema.Matches (names : Int → Int → Prop) (a b : StoredSchema) : Prop where
  id : names a.id b.id
  fingerprint : b.fingerprint = a.fingerprint
  canonical : b.canonical = a.canonical

/-- Two results that are the same but for ids, which stand for one another, and raw texts. -/
inductive Result.Matches (names : Int → Int → Prop) : Result → Result → Prop where
  | id {n n' : Int} (named : names n n') : Matches names (.id n) (.id n')
  | info {i i' : SchemaInfo} (scope : i'.scope = i.scope) (number : i'.number = i.number)
      (schema : i.schema.Matches names i'.schema) : Matches names (.info i) (.info i')
  | schema {e e' : StoredSchema} (schema : e.Matches names e') :
      Matches names (.schema e) (.schema e')
  | compatible (b : Bool) : Matches names (.compatible b) (.compatible b)
  | subjects (texts : List String) : Matches names (.subjects texts) (.subjects texts)
  | numbers (ns : List Int) : Matches names (.numbers ns) (.numbers ns)
  | number (n : Int) : Matches names (.number n) (.number n)
  | mode (m : Mode) : Matches names (.mode m) (.mode m)

/-- Two answers that are the same failure or results that match. -/
inductive AnswersMatch (names : Int → Int → Prop) :
    Except Failure Result → Except Failure Result → Prop where
  | ok {a b : Result} (results : a.Matches names b) : AnswersMatch names (.ok a) (.ok b)
  | failed (failure : Failure) : AnswersMatch names (.error failure) (.error failure)

section

variable {names more : Int → Int → Prop}

theorem StoredSchema.Matches.mono (sub : ∀ n n', names n n' → more n n') {a b : StoredSchema}
    (schemas : a.Matches names b) : a.Matches more b :=
  ⟨sub _ _ schemas.id, schemas.fingerprint, schemas.canonical⟩

theorem Result.Matches.mono (sub : ∀ n n', names n n' → more n n') {a b : Result}
    (results : a.Matches names b) : a.Matches more b := by
  cases results with
  | id named => exact .id (sub _ _ named)
  | info scope number schema => exact .info scope number (schema.mono sub)
  | schema schema => exact .schema (schema.mono sub)
  | compatible b => exact .compatible b
  | subjects texts => exact .subjects texts
  | numbers ns => exact .numbers ns
  | number n => exact .number n
  | mode m => exact .mode m

theorem AnswersMatch.mono (sub : ∀ n n', names n n' → more n n') {a b : Except Failure Result}
    (answers : AnswersMatch names a b) : AnswersMatch more a b := by
  cases answers with
  | ok results => exact .ok (results.mono sub)
  | failed failure => exact .failed failure

end

namespace Registry

/-- Two ids name schemas of two registries that have one canonical text. -/
def Names (r s : Registry) (n n' : Int) : Prop :=
  ∃ e ∈ r.schemas.entries, ∃ e' ∈ s.schemas.entries,
    e.id = n ∧ e'.id = n' ∧ e'.canonical = e.canonical

/-! ## Registries in memory -/

/-- A sound registry in memory whose schemas have some of the texts. -/
structure Filled (texts : String → Prop) (default : Mode) (r : Registry) : Prop where
  memory : r.storage = none
  sound : r.Sound default
  texts : ∀ e ∈ r.schemas.entries, ∃ text, texts text ∧ e.canonical = .str text

/-- Two registries in memory that agree on a scope. -/
structure Beside (texts : String → Prop) (default : Mode) (scope : Scope) (r s : Registry) :
    Prop where
  left : Filled texts default r
  right : Filled texts default s
  agree : Agree scope r s

/-- A step for one registry and a step for another one, whose results are shown in one way, are
answered alike and leave the registries in agreement on a scope, with no schema lost. -/
def Abreast {α : Type} (texts : String → Prop) (default : Mode) (scope : Scope) (r s : Registry)
    (x y : Step Registry α) (f : α → Result) : Prop :=
  ∃ answer answer' r' s', x.outcome r = (answer, r') ∧ y.outcome s = (answer', s') ∧
    AnswersMatch (Names r' s') (answer.map f) (answer'.map f) ∧
    Beside texts default scope r' s' ∧
    r.schemas.entries ⊆ r'.schemas.entries ∧ s.schemas.entries ⊆ s'.schemas.entries

section

variable {α β : Type} {texts : String → Prop} {default : Mode} {scope other : Scope}
  {r r' s s' : Registry}

/-- In two sound registries ids name one another's schemas one to one. -/
theorem biUnique_names (left : r.Sound default) (right : s.Sound default) :
    Relator.BiUnique (Names r s) := by
  constructor
  · rintro n k n' ⟨e, mem, e', mem', rfl, rfl, same⟩ ⟨d, known, d', known', rfl, id, same'⟩
    have found := right.schemas.find?_id mem'
    rw [← id, right.schemas.find?_id known'] at found
    cases found
    rw [left.schemas.eq_of_canonical mem known (same.symm.trans same')]
  · rintro n n' k' ⟨e, mem, e', mem', rfl, rfl, same⟩ ⟨d, known, d', known', id, rfl, same'⟩
    have found := left.schemas.find?_id mem
    rw [← id, left.schemas.find?_id known] at found
    cases found
    rw [right.schemas.eq_of_canonical mem' known' (same.trans same'.symm)]

theorem Names.mono (more : r.schemas.entries ⊆ r'.schemas.entries)
    (more' : s.schemas.entries ⊆ s'.schemas.entries) (n n' : Int) (named : Names r s n n') :
    Names r' s' n n' := by
  obtain ⟨e, mem, e', mem', rest⟩ := named
  exact ⟨e, more mem, e', more' mem', rest⟩

/-- Schemas with one canonical text match. -/
theorem Filled.matches (left : Filled texts default r) (right : Filled texts default s)
    {e e' : StoredSchema} (mem : e ∈ r.schemas.entries) (mem' : e' ∈ s.schemas.entries)
    (same : e'.canonical = e.canonical) : e.Matches (Names r s) e' := by
  obtain ⟨text, _, canonical, -, address⟩ := left.sound.schemas.addressed e mem
  obtain ⟨text', _, canonical', -, address'⟩ := right.sound.schemas.addressed e' mem'
  refine ⟨⟨e, mem, e', mem', rfl, rfl, same⟩, ?_, same⟩
  rw [canonical, canonical'] at same
  cases same
  exact address'.trans address.symm

/-! ## Parts of steps -/

section

variable {x y : Step Registry α} {f : α → Result} {g : α → β}

theorem Abreast.failed (beside : Beside texts default scope r s) {failure : Failure}
    (first : x.outcome r = (.error failure, r)) (second : y.outcome s = (.error failure, s)) :
    Abreast texts default scope r s x y f :=
  ⟨_, _, r, s, first, second, .failed failure, beside, List.Subset.refl _, List.Subset.refl _⟩

theorem Abreast.looked (beside : Beside texts default scope r s) {a a' : α}
    (first : x.outcome r = (.ok a, r)) (second : y.outcome s = (.ok a', s))
    (results : (f a).Matches (Names r s) (f a')) : Abreast texts default scope r s x y f :=
  ⟨_, _, r, s, first, second, .ok results, beside, List.Subset.refl _, List.Subset.refl _⟩

theorem Abreast.refuse (beside : Beside texts default scope r s) (fault : Fault) :
    Abreast texts default scope r s (Step.refuse fault : Step Registry α) (Step.refuse fault) f :=
  .failed beside (Step.outcome_refuse fault r) (Step.outcome_refuse fault s)

theorem Abreast.pure (beside : Beside texts default scope r s) {a a' : α}
    (results : (f a).Matches (Names r s) (f a')) :
    Abreast texts default scope r s (pure a) (pure a') f :=
  .looked beside (Step.outcome_pure a r) (Step.outcome_pure a' s) results

theorem Abreast.get_bind {f' g' : Registry → Step Registry α}
    (abreast : Abreast texts default scope r s (f' r) (g' s) f) :
    Abreast texts default scope r s (get >>= f') (get >>= g') f := abreast

/-- What is worked out from the arguments alone is the same for both. -/
theorem Abreast.settle_bind (beside : Beside texts default scope r s) {computed : Except Failure β}
    {f' g' : β → Step Registry α}
    (next : ∀ b, computed = .ok b → Abreast texts default scope r s (f' b) (g' b) f) :
    Abreast texts default scope r s (settle computed >>= f') (settle computed >>= g') f := by
  cases computed with
  | ok b => exact next b rfl
  | error failure =>
    exact .failed beside (settle_error_outcome rfl f' r) (settle_error_outcome rfl g' s)

theorem Abreast.unless (beside : Beside texts default scope r s) (c : Prop) [Decidable c]
    (fault : Fault) (next : Abreast texts default scope r s x y f) :
    Abreast texts default scope r s (if c then Step.refuse fault >>= fun _ : PUnit => x else x)
      (if c then Step.refuse fault >>= fun _ : PUnit => y else y) f := by
  split
  · exact .failed beside (Step.bind_of_error (Step.outcome_refuse fault r) _)
      (Step.bind_of_error (Step.outcome_refuse fault s) _)
  · exact next

end

/-! ## Changes in memory -/

theorem Commits.in_memory {step : Step Registry α} {a : α} {after : Registry} {words : Prop}
    (commits : Commits default step r a after words) (memory : r.storage = none)
    (unbacked : after.storage = none) : step.outcome r = (.ok a, after) ∧ after.Sound default := by
  rcases commits with ⟨file, files, made, sound⟩ | ⟨backed, -⟩
  · rw [memory, Option.isSome_none, Option.isSome_eq_false_iff, Option.isNone_iff_eq_none] at files
    have same : after.withFile file = after := by
      rw [files, ← unbacked]
      rfl
    rw [same] at made sound
    exact ⟨made, sound⟩
  · rw [memory] at backed
    cases backed

/-- No two of some texts have one fingerprint. -/
def Distinct (texts : String → Prop) : Prop :=
  ∀ text text', texts text → texts text' →
    Schema.fingerprint text = Schema.fingerprint text' → text = text'

/-- A schema has been enrolled in a scope: it is stored under its text, and a version that points at
it has been appended. -/
structure Enrolled (texts : String → Prop) (default : Mode) (scope : Scope) (text : String)
    (r : Registry) (e : StoredSchema) (r' : Registry) : Prop where
  filled : Filled texts default r'
  more : r.schemas.entries ⊆ r'.schemas.entries
  stored : e ∈ r'.schemas.entries
  canonical : e.canonical = .str text
  versions : r'.versions = r.versions.add (r.versions.next scope e.id)
  config : r'.config = r.config

theorem Filled.enroll (filled : Filled texts default r) (distinct : Distinct texts)
    {candidate : Schema.Canonical} (submitted : texts candidate.text)
    (unheld : r.live? scope candidate.fingerprint = none) :
    ∃ e r', (enroll scope candidate).outcome r = (.ok e.id, r') ∧
      Enrolled texts default scope candidate.text r e r' := by
  obtain ⟨memory, sound, known⟩ := filled
  cases found : r.schemas.withFingerprint? (.str candidate.fingerprint) with
  | some e =>
    obtain ⟨made, sound'⟩ := (enroll_known sound found unheld).in_memory memory memory
    obtain ⟨stored, address⟩ := sound.schemas.withFingerprint?_some found
    obtain ⟨text, listed, canonical⟩ := known e stored
    obtain ⟨text', _, canonical', -, address'⟩ := sound.schemas.addressed e stored
    have same : text' = candidate.text := by
      refine distinct text' candidate.text ?_ submitted ?_
      · cases canonical.symm.trans canonical'
        exact listed
      · exact Json.str.inj (address'.symm.trans address)
    exact ⟨e, _, made, ⟨memory, sound', known⟩, List.Subset.refl _, stored,
      canonical'.trans (congrArg Json.str same), rfl, rfl⟩
  | none =>
    obtain ⟨made, sound'⟩ := (enroll_new sound scope found).in_memory memory memory
    refine ⟨r.schemas.next candidate.text candidate.raw, _, made, ⟨memory, sound', ?_⟩,
      List.subset_append_left _ _, List.mem_append_right _ List.mem_cons_self, rfl, rfl, rfl⟩
    intro e mem
    rcases List.mem_append.1 mem with old | new
    · exact known e old
    · rw [List.mem_singleton.1 new]
      exact ⟨candidate.text, submitted, rfl⟩

/-! ## Agreement after changes -/

/-- Two registries still agree on a scope after schemas with one text have been enrolled in it. -/
theorem Beside.enrolled (beside : Beside texts default scope r s) {text : String}
    {e e' : StoredSchema} (left : Enrolled texts default scope text r e r')
    (right : Enrolled texts default scope text s e' s') : Beside texts default scope r' s' := by
  refine ⟨left.filled, right.filled, ?_, ?_, ?_⟩
  · rw [left.config, right.config, beside.agree.global]
  · rw [left.config, right.config, beside.agree.override]
  · have rows : ∀ {t t' : Registry} {d : StoredSchema}, Filled texts default t →
        Enrolled texts default scope text t d t' →
        (t'.versions.ofScope scope).map t'.spelled = (t.versions.ofScope scope).map t.spelled ++
          [⟨scope, t.versions.maxNumber scope + 1, .str text, false⟩] := by
      intro t t' d filled enrolled
      have spelled : t'.spelled (t.versions.next scope d.id) =
          ⟨scope, t.versions.maxNumber scope + 1, .str text, false⟩ := by
        unfold Registry.spelled
        rw [show t'.canonicalAt (t.versions.next scope d.id).schemaId = .str text from
          (canonicalAt_id enrolled.filled.sound.schemas enrolled.stored).trans enrolled.canonical]
        rfl
      rw [enrolled.versions, Versions.ofScope_next, List.map_append, List.map_singleton, spelled,
        spelled_ofScope filled.sound enrolled.filled.sound.schemas enrolled.more]
    rw [rows beside.left left, rows beside.right right, beside.agree.versions,
      beside.agree.maxNumber]

theorem spelled_marked (t : Registry) (numbers : List Int) (version : Version) :
    t.spelled (Versions.marked scope numbers version) =
      Versions.marked scope numbers (t.spelled version) := by
  unfold Versions.marked Registry.spelled
  dsimp only
  split <;> rfl

/-- Two registries still agree on a scope after the same numbers of it have been marked. -/
theorem Agree.mark (agree : Agree scope r s) (numbers : List Int) :
    Agree scope { r with versions := r.versions.mark scope numbers }
      { s with versions := s.versions.mark scope numbers } := by
  refine ⟨agree.global, agree.override, ?_⟩
  have rows : ∀ t : Registry,
      ((t.versions.mark scope numbers).ofScope scope).map
        (spelled { t with versions := t.versions.mark scope numbers }) =
      ((t.versions.ofScope scope).map t.spelled).map (Versions.marked scope numbers) := by
    intro t
    rw [Versions.ofScope_mark, List.map_map, List.map_map]
    exact List.map_congr_left fun version _ => spelled_marked t numbers version
  exact (rows s).trans ((congrArg _ agree.versions).trans (rows r).symm)

theorem Filled.mark (filled : Filled texts default r) (scope : Scope) (numbers : List Int) :
    Filled texts default { r with versions := r.versions.mark scope numbers } where
  memory := filled.memory
  sound := ⟨filled.sound.schemas, filled.sound.versions.mark scope numbers, fun _ same =>
    nomatch filled.memory.symm.trans same⟩
  texts := filled.texts

theorem Filled.config (filled : Filled texts default r) (config : Config) :
    Filled texts default { r with config := config } where
  memory := filled.memory
  sound := ⟨filled.sound.schemas, filled.sound.versions, fun _ same =>
    nomatch filled.memory.symm.trans same⟩
  texts := filled.texts

/-- Marking versions of another scope, or numbers of none, leaves the versions of a scope. -/
theorem agree_mark_other (elsewhere : other ≠ scope) (r : Registry) (numbers : List Int) :
    Agree scope r { r with versions := r.versions.mark other numbers } := by
  refine ⟨rfl, rfl, ?_⟩
  show ((r.versions.mark other numbers).ofScope scope).map r.spelled = _
  rw [Versions.ofScope_mark, List.map_map]
  refine List.map_congr_left fun version mem => ?_
  have here := (Versions.mem_ofScope.1 mem).2
  have unmarked : Versions.marked other numbers version = version :=
    if_neg fun hit => elsewhere (hit.1.symm.trans here)
  exact congrArg r.spelled unmarked

/-- Enrolling a schema in another scope leaves the versions of a scope. -/
theorem Enrolled.agree_other {text : String} {e : StoredSchema}
    (enrolled : Enrolled texts default other text r e r') (sound : r.Sound default)
    (elsewhere : other ≠ scope) : Agree scope r r' := by
  refine ⟨by rw [enrolled.config], by rw [enrolled.config], ?_⟩
  have rows : r'.versions.ofScope scope = r.versions.ofScope scope := by
    have away : [r.versions.next other e.id].filter (fun row => row.scope == scope) = [] := by
      rw [List.filter_singleton, show ((r.versions.next other e.id).scope == scope) = false from
        beq_eq_false_iff_ne.2 elsewhere]
      rfl
    rw [enrolled.versions, Versions.ofScope_add, away, List.append_nil]
  rw [rows]
  exact spelled_ofScope sound enrolled.filled.sound.schemas enrolled.more scope

theorem Agree.trans {t : Registry} (first : Agree scope r s) (second : Agree scope s t) :
    Agree scope r t :=
  ⟨second.global.trans first.global, second.override.trans first.override,
    second.versions.trans first.versions⟩

theorem Agree.symm (agree : Agree scope r s) : Agree scope s r :=
  ⟨agree.global.symm, agree.override.symm, agree.versions.symm⟩

/-! ## Operations on other scopes -/

/-- A registry in memory still agrees with an earlier one on a scope, and has lost no schema. -/
structure Spares (texts : String → Prop) (default : Mode) (scope : Scope) (r r' : Registry) :
    Prop where
  filled : Filled texts default r'
  agree : Agree scope r r'
  more : r.schemas.entries ⊆ r'.schemas.entries

theorem Filled.spares (filled : Filled texts default r) : Spares texts default scope r r :=
  ⟨filled, Agree.refl scope r, List.Subset.refl _⟩

theorem Filled.spares_looks {step : Step Registry α} (filled : Filled texts default r)
    (looks : step.Looks r) : Spares texts default scope r (step.outcome r).2 := by
  rw [show (step.outcome r).2 = r from looks]
  exact filled.spares

theorem Filled.spares_settle_bind (filled : Filled texts default r) {computed : Except Failure β}
    {next : β → Step Registry α}
    (rest : ∀ b, computed = .ok b → Spares texts default scope r ((next b).outcome r).2) :
    Spares texts default scope r ((settle computed >>= next).outcome r).2 := by
  cases computed with
  | ok b => exact rest b rfl
  | error failure => exact filled.spares

theorem Filled.spares_mark (filled : Filled texts default r) (elsewhere : other ≠ scope)
    (numbers : List Int) :
    Spares texts default scope r { r with versions := r.versions.mark other numbers } :=
  ⟨filled.mark other numbers, agree_mark_other elsewhere r numbers, List.Subset.refl _⟩

theorem Filled.spares_config (filled : Filled texts default r) {config : Config}
    (global : config.global = r.config.global)
    (override : config.override? scope = r.config.override? scope) :
    Spares texts default scope r { r with config := config } :=
  ⟨filled.config config, ⟨global, override, rfl⟩, List.Subset.refl _⟩

/-- The texts that an operation would store are among some texts. -/
def Submits (texts : String → Prop) : Operation → Prop
  | .register _ _ schema => ∀ candidate, canonicalOf schema = .ok candidate → texts candidate.text
  | _ => True

section

variable (filled : Filled texts default r) (subject : Json) (part : Argument Part)
  (elsewhere : ∀ other, scopeOf subject part = .ok other → other ≠ scope)
include filled elsewhere

theorem spares_register (distinct : Distinct texts) {schema : Json}
    (submits : ∀ candidate, canonicalOf schema = .ok candidate → texts candidate.text) :
    Spares texts default scope r ((register subject part schema).outcome r).2 := by
  rcases register_cases r subject part schema with
    ⟨failure, unchanged⟩ |
      ⟨other, candidate, placed, accepted, ⟨info, -, unchanged⟩ | ⟨admits, ran⟩⟩
  · rw [unchanged]
    exact filled.spares
  · rw [unchanged]
    exact filled.spares
  · obtain ⟨e, r', made, enrolled⟩ :=
      filled.enroll distinct (submits candidate accepted) admits.unheld
    rw [ran, made]
    exact ⟨enrolled.filled, enrolled.agree_other filled.sound (elsewhere other placed),
      enrolled.more⟩

theorem spares_deleteVersion (version : Json) :
    Spares texts default scope r ((deleteVersion subject part version).outcome r).2 := by
  refine filled.spares_settle_bind fun other placed => ?_
  refine filled.spares_settle_bind fun selector _ => ?_
  cases got : r.versions.get other selector with
  | error failure =>
    rw [onVersions_outcome, delete_outcome, got]
    exact filled.spares
  | ok found =>
    rw [((delete_commits filled.sound got).in_memory filled.memory filled.memory).1]
    exact filled.spares_mark (elsewhere other placed) _

theorem spares_deleteSubject :
    Spares texts default scope r ((deleteSubject subject part).outcome r).2 := by
  refine filled.spares_settle_bind fun other placed => ?_
  cases live : (r.versions.history other).map (·.number) with
  | nil =>
    rw [onVersions_outcome, deleteAll_outcome, live]
    exact filled.spares
  | cons n rest =>
    rw [((deleteAll_commits filled.sound live (List.cons_ne_nil n rest)).in_memory filled.memory
      filled.memory).1]
    exact filled.spares_mark (elsewhere other placed) _

theorem spares_setModeOf (argument : Argument Mode) :
    Spares texts default scope r ((setModeOf subject part argument).outcome r).2 := by
  refine filled.spares_settle_bind fun other placed => ?_
  cases parsed : parseMode argument with
  | error failure =>
    rw [onConfig_outcome, setOverride_outcome, parsed]
    exact filled.spares
  | ok mode =>
    rw [((setOverride_commits filled.sound other parsed).in_memory filled.memory filled.memory).1]
    refine filled.spares_config rfl ?_
    rw [Config.override?_withOverride, if_neg (elsewhere other placed)]

theorem spares_clearModeOf :
    Spares texts default scope r ((clearModeOf subject part).outcome r).2 := by
  refine filled.spares_settle_bind fun other placed => ?_
  by_cases has : (r.config.override? other).isSome = true
  · have cleared := ((clearOverride_commits filled.sound has).in_memory filled.memory
      filled.memory).1
    rw [Step.bind_of_ok cleared]
    refine filled.spares_config rfl ?_
    rw [Config.override?_without, if_neg (elsewhere other placed)]
  · have looked : (onConfig (Config.clearOverride other)).outcome r = (.ok (), r) := by
      rw [onConfig_outcome, clearOverride_outcome, if_neg has]
    rw [Step.bind_of_ok looked]
    exact filled.spares

end

/-- An operation that does not concern a scope spares it. -/
theorem Filled.perform_spares (filled : Filled texts default r) (distinct : Distinct texts)
    {op : Operation} (submits : Submits texts op) (away : op.concerns scope = false) :
    Spares texts default scope r ((perform op).outcome r).2 := by
  have elsewhere : ∀ {subject : Json} {part : Argument Part},
      decide ((scopeOf subject part).toOption = some scope) = false →
      ∀ other, scopeOf subject part = .ok other → other ≠ scope := by
    intro subject part away other placed same
    refine of_decide_eq_false away ?_
    rw [placed, same]
    rfl
  have shown : ∀ {op : Operation} {α : Type} {step : Step Registry α} {f : α → Result},
      Spares texts default scope r (step.outcome r).2 → perform op = (do return f (← step)) →
      Spares texts default scope r ((perform op).outcome r).2 := by
    intro op α step f spares same
    rw [same, Step.outcome_map]
    exact spares
  cases op with
  | register subject part schema =>
    exact shown (spares_register filled subject part (elsewhere away) distinct submits) rfl
  | check subject part schema =>
    exact shown (filled.spares_looks (looks_check subject part r schema)) rfl
  | test subject part schema version =>
    exact shown (filled.spares_looks (looks_test subject part r schema version)) rfl
  | subjects => exact filled.spares
  | versionNumbers subject part =>
    exact shown (filled.spares_looks (looks_versionNumbers subject part r)) rfl
  | schemaById id => exact shown (filled.spares_looks (looks_schemaById r id)) rfl
  | schemaAt subject part version =>
    exact shown (filled.spares_looks (looks_schemaAt subject part r version)) rfl
  | deleteVersion subject part version =>
    exact shown (spares_deleteVersion filled subject part (elsewhere away) version) rfl
  | deleteSubject subject part =>
    exact shown (spares_deleteSubject filled subject part (elsewhere away)) rfl
  | globalMode => cases away
  | setGlobalMode mode => cases away
  | modeOf subject part => exact shown (filled.spares_looks (looks_modeOf subject part r)) rfl
  | setModeOf subject part mode =>
    exact shown (spares_setModeOf filled subject part (elsewhere away) mode) rfl
  | clearModeOf subject part =>
    exact shown (spares_clearModeOf filled subject part (elsewhere away)) rfl

/-! ## Operations on the scope -/

theorem live_stored (sound : r.Sound default) {fingerprint : String} {info : SchemaInfo}
    (live : r.live? scope fingerprint = some info) : info.schema ∈ r.schemas.entries :=
  (sound.schemas.withFingerprint?_some (withFingerprint?_of_live? live)).1

theorem scope_of_live? {fingerprint : String} {info : SchemaInfo}
    (live : r.live? scope fingerprint = some info) : info.scope = scope := by
  rw [live?_of_known (withFingerprint?_of_live? live)] at live
  obtain ⟨version, -, same⟩ := Option.map_eq_some_iff.1 live
  exact (congrArg SchemaInfo.scope same).symm

theorem number_of_spelled {version version' : Version}
    (same : s.spelled version' = r.spelled version) : version'.number = version.number := by
  have number := congrArg Version.number same
  exact number

/-- Changes of two registries that give results which match are made abreast. -/
theorem Abreast.changed {x y : Step Registry α} {f : α → Result} {a : α}
    (first : x.outcome r = (.ok a, r')) (second : y.outcome s = (.ok a, s'))
    (results : (f a).Matches (Names r' s') (f a)) (beside : Beside texts default scope r' s')
    (more : r'.schemas = r.schemas) (more' : s'.schemas = s.schemas) :
    Abreast texts default scope r s x y f :=
  ⟨_, _, r', s', first, second, .ok results, beside, by rw [more]; exact List.Subset.refl _,
    by rw [more']; exact List.Subset.refl _⟩

section

variable (beside : Beside texts default scope r s) {subject : Json} {part : Argument Part}
  (placed : scopeOf subject part = .ok scope)
include beside placed

theorem abreast_register (distinct : Distinct texts) {schema : Json}
    (submits : ∀ candidate, canonicalOf schema = .ok candidate → texts candidate.text) :
    Abreast texts default scope r s (register subject part schema) (register subject part schema)
      Result.id := by
  obtain ⟨left, right, agree⟩ := beside
  unfold register
  rw [placed]
  refine .settle_bind ⟨left, right, agree⟩ fun here same => ?_
  cases same
  refine .settle_bind ⟨left, right, agree⟩ fun candidate accepted => ?_
  apply Abreast.get_bind
  rw [agree.effective]
  rcases agree.live? left.sound right.sound candidate.fingerprint with
    ⟨dead, dead'⟩ | ⟨info, info', live, live', -, canonical⟩
  · rw [dead, dead']
    dsimp only
    rw [violations_congr left.sound right.sound (references_known r _ scope)
      (references_known s _ scope) (agree.references (r.config.effective scope)) candidate]
    refine .settle_bind ⟨left, right, agree⟩ fun found _ => ?_
    refine .unless ⟨left, right, agree⟩ _ _ ?_
    obtain ⟨e, r', made, enrolled⟩ := left.enroll distinct (submits candidate accepted) dead
    obtain ⟨e', s', made', enrolled'⟩ := right.enroll distinct (submits candidate accepted) dead'
    refine ⟨_, _, r', s', made, made', .ok (.id ?_),
      Beside.enrolled ⟨left, right, agree⟩ enrolled enrolled', enrolled.more, enrolled'.more⟩
    exact ⟨e, enrolled.stored, e', enrolled'.stored, rfl, rfl,
      enrolled'.canonical.trans enrolled.canonical.symm⟩
  · rw [live, live']
    exact .pure ⟨left, right, agree⟩ (.id ⟨info.schema, live_stored left.sound live, info'.schema,
      live_stored right.sound live', rfl, rfl, canonical⟩)

theorem abreast_check (schema : Json) :
    Abreast texts default scope r s (check subject part schema) (check subject part schema)
      Result.info := by
  obtain ⟨left, right, agree⟩ := beside
  unfold check
  rw [placed]
  refine .settle_bind ⟨left, right, agree⟩ fun here same => ?_
  cases same
  refine .settle_bind ⟨left, right, agree⟩ fun candidate _ => ?_
  apply Abreast.get_bind
  rw [agree.history_isEmpty]
  refine .unless ⟨left, right, agree⟩ _ _ ?_
  rcases agree.live? left.sound right.sound candidate.fingerprint with
    ⟨dead, dead'⟩ | ⟨info, info', live, live', number, canonical⟩
  · rw [dead, dead']
    exact .refuse ⟨left, right, agree⟩ _
  · rw [live, live']
    exact .pure ⟨left, right, agree⟩ (.info
      ((scope_of_live? live').trans (scope_of_live? live).symm) number
      (left.matches right (live_stored left.sound live) (live_stored right.sound live') canonical))

theorem abreast_test (schema version : Json) :
    Abreast texts default scope r s (test subject part schema version)
      (test subject part schema version) Result.compatible := by
  obtain ⟨left, right, agree⟩ := beside
  unfold test
  rw [placed]
  refine .settle_bind ⟨left, right, agree⟩ fun here same => ?_
  cases same
  refine .settle_bind ⟨left, right, agree⟩ fun selector _ => ?_
  refine .settle_bind ⟨left, right, agree⟩ fun candidate _ => ?_
  apply Abreast.get_bind
  rw [agree.effective]
  dsimp only
  rcases agree.testedAgainst selector (r.config.effective scope) with
    ⟨failure, here, there⟩ | ⟨against, against', here, there, spelled⟩
  · rw [here, there]
    exact .failed ⟨left, right, agree⟩ (settle_error_outcome rfl _ r) (settle_error_outcome rfl _ s)
  · have same := violations_congr left.sound right.sound (testedAgainst_known here)
      (testedAgainst_known there) spelled candidate (r.config.effective scope)
    rw [here, there]
    show Abreast texts default scope r s (settle (r.violations candidate against _) >>= _)
      (settle (s.violations candidate against' _) >>= _) _
    rw [same]
    refine .settle_bind ⟨left, right, agree⟩ fun found _ => ?_
    exact .pure ⟨left, right, agree⟩ (.compatible _)

theorem abreast_versionNumbers :
    Abreast texts default scope r s (versionNumbers subject part) (versionNumbers subject part)
      Result.numbers := by
  unfold versionNumbers
  rw [placed]
  refine .settle_bind beside fun here same => ?_
  cases same
  apply Abreast.get_bind
  rw [beside.agree.liveNumbers]
  cases r.versions.liveNumbers scope with
  | ok numbers => exact .pure beside (.numbers numbers)
  | error failure => exact .failed beside rfl rfl

theorem abreast_schemaAt (version : Json) :
    Abreast texts default scope r s (schemaAt subject part version) (schemaAt subject part version)
      Result.info := by
  obtain ⟨left, right, agree⟩ := beside
  unfold schemaAt
  rw [placed]
  refine .settle_bind ⟨left, right, agree⟩ fun here same => ?_
  cases same
  refine .settle_bind ⟨left, right, agree⟩ fun selector _ => ?_
  apply Abreast.get_bind
  rcases agree.get selector with ⟨failure, here, there⟩ | ⟨found, found', here, there, spelled⟩
  · rw [here, there]
    exact .failed ⟨left, right, agree⟩ (settle_error_outcome rfl _ r) (settle_error_outcome rfl _ s)
  · obtain ⟨e, stored, -, schema, text⟩ := left.sound.spelled (Versions.mem_rows_of_get here)
    obtain ⟨e', stored', -, schema', text'⟩ := right.sound.spelled (Versions.mem_rows_of_get there)
    have canonical : e'.canonical = e.canonical := by rw [← text, ← text', spelled]
    have number : found'.number = found.number := number_of_spelled spelled
    rw [here, there]
    show Abreast texts default scope r s (settle (r.schemaOf found) >>= _)
      (settle (s.schemaOf found') >>= _) _
    rw [schema, schema']
    exact .pure ⟨left, right, agree⟩
      (.info rfl number (left.matches right stored stored' canonical))

theorem abreast_deleteVersion (version : Json) :
    Abreast texts default scope r s (deleteVersion subject part version)
      (deleteVersion subject part version) Result.number := by
  obtain ⟨left, right, agree⟩ := beside
  unfold deleteVersion
  rw [placed]
  refine .settle_bind ⟨left, right, agree⟩ fun here same => ?_
  cases same
  refine .settle_bind ⟨left, right, agree⟩ fun selector _ => ?_
  rcases agree.get selector with ⟨failure, here, there⟩ | ⟨found, found', here, there, spelled⟩
  · have first : (onVersions (Versions.delete scope selector)).outcome r = (.error failure, r) := by
      rw [onVersions_outcome, delete_outcome, here]
    have second : (onVersions (Versions.delete scope selector)).outcome s =
        (.error failure, s) := by
      rw [onVersions_outcome, delete_outcome, there]
    exact .failed ⟨left, right, agree⟩ first second
  · have number : found'.number = found.number := number_of_spelled spelled
    have first := ((delete_commits left.sound here).in_memory left.memory left.memory).1
    have second := ((delete_commits right.sound there).in_memory right.memory right.memory).1
    rw [number] at second
    exact .changed first second (.number _)
      ⟨left.mark scope _, right.mark scope _, agree.mark _⟩ rfl rfl

theorem abreast_deleteSubject :
    Abreast texts default scope r s (deleteSubject subject part) (deleteSubject subject part)
      Result.numbers := by
  obtain ⟨left, right, agree⟩ := beside
  unfold deleteSubject
  rw [placed]
  refine .settle_bind ⟨left, right, agree⟩ fun here same => ?_
  cases same
  have numbers := agree.numbers
  cases live : (r.versions.history scope).map (·.number) with
  | nil =>
    rw [live] at numbers
    have first : (onVersions (Versions.deleteAll scope)).outcome r = (.ok [], r) := by
      rw [onVersions_outcome, deleteAll_outcome, live]
    have second : (onVersions (Versions.deleteAll scope)).outcome s = (.ok [], s) := by
      rw [onVersions_outcome, deleteAll_outcome, numbers]
    exact .looked ⟨left, right, agree⟩ first second (.numbers [])
  | cons n rest =>
    rw [live] at numbers
    have some := List.cons_ne_nil n rest
    exact .changed ((deleteAll_commits left.sound live some).in_memory left.memory left.memory).1
      ((deleteAll_commits right.sound numbers some).in_memory right.memory right.memory).1
      (.numbers _) ⟨left.mark scope _, right.mark scope _, agree.mark _⟩ rfl rfl

theorem abreast_modeOf :
    Abreast texts default scope r s (modeOf subject part) (modeOf subject part) Result.mode := by
  unfold modeOf
  rw [placed]
  refine .settle_bind beside fun here same => ?_
  cases same
  apply Abreast.get_bind
  rw [beside.agree.effective]
  exact .pure beside (.mode _)

theorem abreast_setModeOf (argument : Argument Mode) :
    Abreast texts default scope r s (setModeOf subject part argument)
      (setModeOf subject part argument) Result.mode := by
  obtain ⟨left, right, agree⟩ := beside
  unfold setModeOf
  rw [placed]
  refine .settle_bind ⟨left, right, agree⟩ fun here same => ?_
  cases same
  cases parsed : parseMode argument with
  | error failure =>
    have refused : ∀ t : Registry,
        (onConfig (Config.setOverride scope argument)).outcome t = (.error failure, t) := by
      intro t
      rw [onConfig_outcome, setOverride_outcome, parsed]
    exact .failed ⟨left, right, agree⟩ (refused r) (refused s)
  | ok mode =>
    refine .changed ((setOverride_commits left.sound scope parsed).in_memory left.memory
      left.memory).1 ((setOverride_commits right.sound scope parsed).in_memory right.memory
      right.memory).1 (.mode mode) ⟨left.config _, right.config _, agree.global, ?_, agree.versions⟩
      rfl rfl
    rw [Config.override?_withOverride, Config.override?_withOverride, agree.override]

theorem abreast_clearModeOf :
    Abreast texts default scope r s (clearModeOf subject part) (clearModeOf subject part)
      Result.mode := by
  obtain ⟨left, right, agree⟩ := beside
  unfold clearModeOf
  rw [placed]
  refine .settle_bind ⟨left, right, agree⟩ fun here same => ?_
  cases same
  by_cases has : (r.config.override? scope).isSome = true
  · have has' : (s.config.override? scope).isSome = true := by
      rw [agree.override]
      exact has
    have first := ((clearOverride_commits left.sound has).in_memory left.memory left.memory).1
    have second := ((clearOverride_commits right.sound has').in_memory right.memory
      right.memory).1
    have agree' : Agree scope { r with config := r.config.without scope }
        { s with config := s.config.without scope } := by
      refine ⟨agree.global, ?_, agree.versions⟩
      rw [Config.override?_without, Config.override?_without, agree.override]
    refine .changed (a := (r.config.without scope).effective scope)
      (Step.bind_of_ok first _) ?_ (.mode _) ⟨left.config _, right.config _, agree'⟩ rfl rfl
    rw [Step.bind_of_ok second]
    exact congrArg (fun mode => (Except.ok mode, _)) agree'.effective
  · have looked : ∀ {t : Registry}, t.config.override? scope = r.config.override? scope →
        (onConfig (Config.clearOverride scope)).outcome t = (.ok (), t) := by
      intro t same
      rw [onConfig_outcome, clearOverride_outcome, same, if_neg has]
    refine .looked ⟨left, right, agree⟩ (a := r.config.effective scope)
      (Step.bind_of_ok (looked rfl) _) ?_ (.mode _)
    rw [Step.bind_of_ok (looked agree.override)]
    exact congrArg (fun mode => (Except.ok mode, s)) agree.effective

end

theorem abreast_globalMode (beside : Beside texts default scope r s) :
    Abreast texts default scope r s globalMode globalMode Result.mode := by
  unfold globalMode
  apply Abreast.get_bind
  rw [beside.agree.global]
  exact .pure beside (.mode _)

theorem abreast_setGlobalMode (beside : Beside texts default scope r s) (argument : Argument Mode) :
    Abreast texts default scope r s (setGlobalMode argument) (setGlobalMode argument)
      Result.mode := by
  obtain ⟨left, right, agree⟩ := beside
  unfold setGlobalMode
  cases parsed : parseMode argument with
  | error failure =>
    have refused : ∀ t : Registry,
        (onConfig (Config.setGlobal argument)).outcome t = (.error failure, t) := by
      intro t
      rw [onConfig_outcome, setGlobal_outcome, parsed]
    exact .failed ⟨left, right, agree⟩ (refused r) (refused s)
  | ok mode =>
    exact .changed ((setGlobal_commits left.sound parsed).in_memory left.memory left.memory).1
      ((setGlobal_commits right.sound parsed).in_memory right.memory right.memory).1 (.mode mode)
      ⟨left.config _, right.config _, rfl, agree.override, agree.versions⟩ rfl rfl

/-- Two registries carry out an operation, answer alike and agree on a scope afterwards. -/
structure Paired (texts : String → Prop) (default : Mode) (scope : Scope) (r s : Registry)
    (op : Operation) : Prop where
  answers : AnswersMatch (Names ((perform op).outcome r).2 ((perform op).outcome s).2)
    ((perform op).outcome r).1 ((perform op).outcome s).1
  beside : Beside texts default scope ((perform op).outcome r).2 ((perform op).outcome s).2
  more : r.schemas.entries ⊆ ((perform op).outcome r).2.schemas.entries
  more' : s.schemas.entries ⊆ ((perform op).outcome s).2.schemas.entries

theorem Abreast.paired {x : Step Registry α} {f : α → Result}
    (abreast : Abreast texts default scope r s x x f) {op : Operation}
    (same : perform op = do return f (← x)) : Paired texts default scope r s op := by
  obtain ⟨answer, answer', r', s', first, second, answers, beside, more, more'⟩ := abreast
  have left : (perform op).outcome r = (answer.map f, r') := by
    rw [same, Step.outcome_map, first]
  have right : (perform op).outcome s = (answer'.map f, s') := by
    rw [same, Step.outcome_map, second]
  constructor
  · rw [left, right]
    exact answers
  · rw [left, right]
    exact beside
  · rw [left]
    exact more
  · rw [right]
    exact more'

/-- Two registries that agree on a scope carry out every operation that concerns it alike. -/
theorem Beside.perform (beside : Beside texts default scope r s) (distinct : Distinct texts)
    {op : Operation} (submits : Submits texts op) (concerns : op.concerns scope = true) :
    Paired texts default scope r s op := by
  have here : ∀ {subject : Json} {part : Argument Part},
      decide ((scopeOf subject part).toOption = some scope) = true →
      scopeOf subject part = .ok scope := by
    intro subject part same
    have placed := of_decide_eq_true same
    cases found : scopeOf subject part with
    | error failure =>
      rw [found] at placed
      cases placed
    | ok other =>
      rw [found] at placed
      cases placed
      rfl
  cases op with
  | register subject part schema =>
    exact (abreast_register beside (here concerns) distinct submits).paired rfl
  | check subject part schema => exact (abreast_check beside (here concerns) schema).paired rfl
  | test subject part schema version =>
    exact (abreast_test beside (here concerns) schema version).paired rfl
  | subjects => cases concerns
  | versionNumbers subject part => exact (abreast_versionNumbers beside (here concerns)).paired rfl
  | schemaById id => cases concerns
  | schemaAt subject part version =>
    exact (abreast_schemaAt beside (here concerns) version).paired rfl
  | deleteVersion subject part version =>
    exact (abreast_deleteVersion beside (here concerns) version).paired rfl
  | deleteSubject subject part => exact (abreast_deleteSubject beside (here concerns)).paired rfl
  | globalMode => exact (abreast_globalMode beside).paired rfl
  | setGlobalMode mode => exact (abreast_setGlobalMode beside mode).paired rfl
  | modeOf subject part => exact (abreast_modeOf beside (here concerns)).paired rfl
  | setModeOf subject part mode => exact (abreast_setModeOf beside (here concerns) mode).paired rfl
  | clearModeOf subject part => exact (abreast_clearModeOf beside (here concerns)).paired rfl

end

end Registry

end AvroRegistry
