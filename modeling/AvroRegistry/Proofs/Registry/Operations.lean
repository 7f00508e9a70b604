import AvroRegistry.Proofs.Registry.Enrolling
import AvroRegistry.Proofs.Registry.Tandem

/-!
# Operations in tandem

Every operation of a registry, carried out by a registry in memory and by one that may have a file,
is in tandem: what it works out from its arguments and looks up is the same for both, and so is the
change that it makes, if it makes one.
-/

namespace AvroRegistry.Registry

open Compatibility (Mode)

section

variable {default : Mode} {m b r : Registry}

/-! ## Numbers that fit -/

/-- An id or number that came after one that is a word was none unless that one was. -/
theorem isWord_of_succ {n : Int} (nonneg : 0 ≤ n) (word : isWord (n + 1) = true) :
    isWord n = true := by
  unfold isWord at word ⊢
  simp only [Bool.and_eq_true, decide_eq_true_eq] at word ⊢
  omega

theorem fits_addSchema (sound : r.Sound default) {canonical raw : String} {versions : Versions}
    (fits : Fits { r with schemas := r.schemas.add (r.schemas.next canonical raw),
                          versions := versions }) :
    isWord (r.schemas.lastId + 1) = true ∧ isWord r.schemas.lastId = true := by
  have last : (r.schemas.add (r.schemas.next canonical raw)).lastId = r.schemas.lastId + 1 := by
    show max r.schemas.lastId (r.schemas.lastId + 1) = _
    omega
  have word := fits.id
  rw [last] at word
  exact ⟨word, isWord_of_succ sound.schemas.last_nonneg word⟩

theorem fits_addVersion {schemas : Schemas} {scope : Scope} {id : Int}
    (fits : Fits { r with schemas := schemas,
                          versions := r.versions.add (r.versions.next scope id) }) :
    isWord (r.versions.maxNumber scope + 1) = true ∧
      ∀ row ∈ r.versions.rows, isWord row.number = true :=
  ⟨fits.numbers _ (List.mem_append_right _ List.mem_cons_self),
    fun row mem => fits.numbers row (List.mem_append_left _ mem)⟩

/-- A version that is appended has a number one above another one, or the number one. -/
theorem Within.addVersion {bound : Int} (within : r.Within bound) (sound : r.Sound default)
    (scope : Scope) (id : Int) :
    ∀ row ∈ (r.versions.add (r.versions.next scope id)).rows, row.number ≤ bound + 1 := by
  intro row mem
  rcases List.mem_append.1 mem with old | new
  · have := within.numbers row old
    omega
  · have ids := sound.schemas.last_nonneg.trans within.id
    have below : r.versions.maxNumber scope < bound + 1 :=
      Versions.maxNumber_lt (by omega) fun row old _ =>
        Int.lt_add_one_of_le (within.numbers row old)
    rw [List.mem_singleton.1 new]
    show r.versions.maxNumber scope + 1 ≤ bound + 1
    omega

theorem keeps_add {r r' : Registry} {version : Version}
    (same : r'.versions = r.versions.add version) : Keeps r r' := by
  intro old known
  rw [same]
  exact ⟨old, List.mem_append_left _ known, rfl, rfl, rfl⟩

theorem grows_addVersion (sound : r.Sound default) (scope : Scope) (id : Int) :
    Grows r { r with versions := r.versions.add (r.versions.next scope id) } where
  keeps := keeps_add rfl
  fits fits := ⟨fits.id, (fits_addVersion fits).2⟩
  within _ within := ⟨within.succ.id, within.addVersion sound scope id⟩

theorem grows_addBoth (sound : r.Sound default) (canonical raw : String) (scope : Scope)
    (id : Int) :
    Grows r { r with schemas := r.schemas.add (r.schemas.next canonical raw),
                     versions := r.versions.add (r.versions.next scope id) } where
  keeps := keeps_add rfl
  fits fits := ⟨(fits_addSchema sound fits).2, (fits_addVersion fits).2⟩
  within bound within := by
    refine ⟨?_, within.addVersion sound scope id⟩
    have := within.id
    show max r.schemas.lastId (r.schemas.lastId + 1) ≤ bound + 1
    omega

theorem grows_mark (r : Registry) (scope : Scope) (numbers : List Int) :
    Grows r { r with versions := r.versions.mark scope numbers } where
  keeps version known := by
    refine ⟨Versions.marked scope numbers version, List.mem_map_of_mem known, ?_⟩
    exact ⟨Versions.marked_scope .., Versions.marked_number .., Versions.marked_schemaId ..⟩
  fits fits := by
    refine ⟨fits.id, fun row mem => ?_⟩
    have marked := fits.numbers (Versions.marked scope numbers row) (List.mem_map_of_mem mem)
    rw [Versions.marked_number] at marked
    exact marked
  within bound within := by
    refine ⟨within.succ.id, fun row mem => ?_⟩
    obtain ⟨old, listed, rfl⟩ := List.mem_map.1 mem
    have unmarked := within.succ.numbers old listed
    rw [← Versions.marked_number numbers old] at unmarked
    exact unmarked

theorem grows_config (r : Registry) (config : Config) : Grows r { r with config := config } :=
  ⟨.of_eq rfl, fun fits => ⟨fits.id, fits.numbers⟩, fun _ within =>
    ⟨within.succ.id, within.succ.numbers⟩⟩

/-! ## Registering -/

/-- A schema is enrolled in tandem if no live version of the scope holds its text. -/
theorem enroll_tandem (together : Together default m b) {scope : Scope}
    {candidate : Schema.Canonical} (unheld : m.live? scope candidate.fingerprint = none) :
    Tandem default m b (enroll scope candidate) (enroll scope candidate) := by
  have alike := together.alike
  have schemas := alike.schemas
  have unheld' := (alike.live? scope candidate.fingerprint).trans unheld
  have number := Versions.maxNumber_congr (alike.versions scope)
  cases known : m.schemas.withFingerprint? (.str candidate.fingerprint) with
  | some e =>
    have known' : b.schemas.withFingerprint? (.str candidate.fingerprint) = some e := by
      rw [schemas]
      exact known
    have second := enroll_known together.right known' unheld'
    rw [number] at second
    exact .of_commits together (enroll_known together.left known unheld) second
      (alike.addVersion scope e.id) (grows_addVersion together.left scope e.id)
      fun fits => (fits_addVersion fits).1
  | none =>
    have absent' : b.schemas.withFingerprint? (.str candidate.fingerprint) = none := by
      rw [schemas]
      exact known
    have second := enroll_new together.right scope absent'
    rw [number, show b.schemas.lastId = m.schemas.lastId by rw [schemas]] at second
    exact .of_commits together (enroll_new together.left scope known) second
      ((alike.addSchema candidate.text candidate.raw).addVersion scope (m.schemas.lastId + 1))
      (grows_addBoth together.left candidate.text candidate.raw scope _)
      fun fits => ⟨(fits_addSchema together.left fits).1, (fits_addVersion fits).1⟩

theorem register_tandem (together : Together default m b) (subject : Json) (part : Argument Part)
    (schema : Json) :
    Tandem default m b (register subject part schema) (register subject part schema) := by
  have alike := together.alike
  unfold register
  refine .settle_bind together (scopeOf_not_internal subject part) fun scope _ => ?_
  refine .settle_bind together (canonicalOf_not_internal schema) fun candidate _ => ?_
  apply Tandem.get_bind
  rw [alike.live?, alike.effective, alike.history]
  cases unheld : m.live? scope candidate.fingerprint with
  | some info => exact .pure together info.schema.id
  | none =>
    dsimp only
    have known := references_known m (m.config.effective scope) scope
    rw [alike.violations]
    refine .settle_bind together (together.left.violations_not_internal candidate known _)
      fun found _ => ?_
    exact .unless together _ (fun _ _ => nofun) (enroll_tandem together unheld)

/-! ## Checking and testing -/

theorem check_tandem (together : Together default m b) (subject : Json) (part : Argument Part)
    (schema : Json) :
    Tandem default m b (check subject part schema) (check subject part schema) := by
  have alike := together.alike
  unfold check
  refine .settle_bind together (scopeOf_not_internal subject part) fun scope _ => ?_
  refine .settle_bind together (canonicalOf_not_internal schema) fun candidate _ => ?_
  apply Tandem.get_bind
  rw [alike.live?, alike.history]
  refine .unless together _ (fun _ _ => nofun) ?_
  cases m.live? scope candidate.fingerprint with
  | some info => exact .pure together info
  | none => exact .refuse together fun _ _ => nofun

theorem test_tandem (together : Together default m b) (subject : Json) (part : Argument Part)
    (schema version : Json) :
    Tandem default m b (test subject part schema version) (test subject part schema version) := by
  have alike := together.alike
  unfold test
  refine .settle_bind together (scopeOf_not_internal subject part) fun scope _ => ?_
  refine .settle_bind together (selectorOf_not_internal version) fun selector _ => ?_
  refine .settle_bind together (canonicalOf_not_internal schema) fun candidate _ => ?_
  apply Tandem.get_bind
  rw [alike.effective]
  dsimp only
  rw [alike.testedAgainst]
  refine .settle_bind together (testedAgainst_not_internal m scope selector _)
    fun against tested => ?_
  rw [alike.violations]
  have known := testedAgainst_known tested
  refine .settle_bind together (together.left.violations_not_internal candidate known _)
    fun found _ => ?_
  exact .pure together found.isEmpty

/-! ## Looking up -/

theorem subjects_tandem (together : Together default m b) :
    Tandem default m b subjects subjects := by
  unfold subjects
  apply Tandem.get_bind
  rw [together.alike.subjects]
  exact .pure together _

theorem versionNumbers_tandem (together : Together default m b) (subject : Json)
    (part : Argument Part) :
    Tandem default m b (versionNumbers subject part) (versionNumbers subject part) := by
  unfold versionNumbers
  refine .settle_bind together (scopeOf_not_internal subject part) fun scope _ => ?_
  apply Tandem.get_bind
  rw [Versions.liveNumbers_congr (together.alike.versions scope)]
  exact .settle together (liveNumbers_not_internal m.versions scope)

theorem schemaById_tandem (together : Together default m b) (id : Json) :
    Tandem default m b (schemaById id) (schemaById id) := by
  unfold schemaById
  refine .settle_bind together (idOf_not_internal id) fun n _ => ?_
  apply Tandem.get_bind
  rw [together.alike.schemas]
  exact .settle together (schema_not_internal m.schemas n)

theorem schemaAt_tandem (together : Together default m b) (subject : Json) (part : Argument Part)
    (version : Json) :
    Tandem default m b (schemaAt subject part version) (schemaAt subject part version) := by
  have alike := together.alike
  unfold schemaAt
  refine .settle_bind together (scopeOf_not_internal subject part) fun scope _ => ?_
  refine .settle_bind together (selectorOf_not_internal version) fun selector _ => ?_
  apply Tandem.get_bind
  rw [Versions.get_congr (alike.versions scope)]
  refine .settle_bind together (get_not_internal m.versions scope selector) fun found got => ?_
  have known := Versions.mem_rows_of_get got
  obtain ⟨e, -, -, schema⟩ := together.left.schemaOf known
  rw [alike.schemaOf, schema]
  exact .settle_bind together (not_internal_ok e) fun schema _ => .pure together _

/-! ## Deleting -/

theorem deleteVersion_tandem (together : Together default m b) (subject : Json)
    (part : Argument Part) (version : Json) :
    Tandem default m b (deleteVersion subject part version)
      (deleteVersion subject part version) := by
  unfold deleteVersion
  refine .settle_bind together (scopeOf_not_internal subject part) fun scope _ => ?_
  refine .settle_bind together (selectorOf_not_internal version) fun selector _ => ?_
  have same := Versions.get_congr (together.alike.versions scope) selector
  cases got : m.versions.get scope selector with
  | error f =>
    have got' := same.trans got
    have proper := get_not_internal m.versions scope selector
    rw [got] at proper
    refine .unchanged together (fun internal => proper internal.of_error) ?_ ?_
    · rw [onVersions_outcome, delete_outcome, got]
    · rw [onVersions_outcome, delete_outcome, got']
  | ok found =>
    exact .of_commits together (delete_commits together.left got)
      (delete_commits together.right (same.trans got))
      (together.alike.mark scope [found.number]) (grows_mark m scope _) fun _ => trivial

theorem deleteSubject_tandem (together : Together default m b) (subject : Json)
    (part : Argument Part) :
    Tandem default m b (deleteSubject subject part) (deleteSubject subject part) := by
  unfold deleteSubject
  refine .settle_bind together (scopeOf_not_internal subject part) fun scope _ => ?_
  have same := congrArg (List.map (·.number)) (together.alike.history scope)
  cases live : (m.versions.history scope).map (·.number) with
  | nil =>
    have live' := same.trans live
    refine .unchanged together (not_internal_ok []) ?_ ?_
    · rw [onVersions_outcome, deleteAll_outcome, live]
    · rw [onVersions_outcome, deleteAll_outcome, live']
  | cons n rest =>
    have some := List.cons_ne_nil n rest
    exact .of_commits together (deleteAll_commits together.left live some)
      (deleteAll_commits together.right (same.trans live) some)
      (together.alike.mark scope (n :: rest)) (grows_mark m scope _) fun _ => trivial

/-! ## Modes -/

theorem globalMode_tandem (together : Together default m b) :
    Tandem default m b globalMode globalMode := by
  unfold globalMode
  apply Tandem.get_bind
  rw [together.alike.global]
  exact .pure together m.config.global

theorem setGlobalMode_tandem (together : Together default m b) (argument : Argument Mode) :
    Tandem default m b (setGlobalMode argument) (setGlobalMode argument) := by
  unfold setGlobalMode
  cases parsed : parseMode argument with
  | error f =>
    refine .unchanged together (parsed ▸ parseMode_not_internal argument) ?_ ?_
    · rw [onConfig_outcome, setGlobal_outcome, parsed]
    · rw [onConfig_outcome, setGlobal_outcome, parsed]
  | ok mode =>
    exact .of_commits together (setGlobal_commits together.left parsed)
      (setGlobal_commits together.right parsed) (together.alike.setGlobal mode)
      (grows_config m _) fun _ => trivial

theorem modeOf_tandem (together : Together default m b) (subject : Json) (part : Argument Part) :
    Tandem default m b (modeOf subject part) (modeOf subject part) := by
  unfold modeOf
  refine .settle_bind together (scopeOf_not_internal subject part) fun scope _ => ?_
  apply Tandem.get_bind
  rw [together.alike.effective]
  exact .pure together (m.config.effective scope)

theorem setModeOf_tandem (together : Together default m b) (subject : Json) (part : Argument Part)
    (argument : Argument Mode) :
    Tandem default m b (setModeOf subject part argument) (setModeOf subject part argument) := by
  unfold setModeOf
  refine .settle_bind together (scopeOf_not_internal subject part) fun scope _ => ?_
  cases parsed : parseMode argument with
  | error f =>
    refine .unchanged together (parsed ▸ parseMode_not_internal argument) ?_ ?_
    · rw [onConfig_outcome, setOverride_outcome, parsed]
    · rw [onConfig_outcome, setOverride_outcome, parsed]
  | ok mode =>
    exact .of_commits together (setOverride_commits together.left scope parsed)
      (setOverride_commits together.right scope parsed) (together.alike.setOverride scope mode)
      (grows_config m _) fun _ => trivial

theorem clearModeOf_tandem (together : Together default m b) (subject : Json)
    (part : Argument Part) :
    Tandem default m b (clearModeOf subject part) (clearModeOf subject part) := by
  unfold clearModeOf
  refine .settle_bind together (scopeOf_not_internal subject part) fun scope _ => ?_
  refine Tandem.look ?_ fun _ m' b' together' => ?_
  · have same := together.alike.overrides scope
    by_cases has : (m.config.override? scope).isSome = true
    · have has' : (b.config.override? scope).isSome = true := by
        rw [same]
        exact has
      exact .of_commits together (clearOverride_commits together.left has)
        (clearOverride_commits together.right has') (together.alike.clearOverride scope)
        (grows_config m _) fun _ => trivial
    · refine .unchanged together (not_internal_ok ()) ?_ ?_
      · rw [onConfig_outcome, clearOverride_outcome, if_neg has]
      · rw [onConfig_outcome, clearOverride_outcome, same, if_neg has]
  · refine ⟨m'.config.effective scope, rfl, ?_⟩
    rw [← together'.alike.effective]
    rfl

/-! ## All operations -/

/-- Every operation is carried out in tandem. -/
theorem perform_tandem (together : Together default m b) (op : Operation) :
    Tandem default m b (perform op) (perform op) := by
  cases op with
  | register subject part schema =>
    exact (register_tandem together subject part schema).map Result.id
  | check subject part schema => exact (check_tandem together subject part schema).map Result.info
  | test subject part schema version =>
    exact (test_tandem together subject part schema version).map Result.compatible
  | subjects => exact (subjects_tandem together).map Result.subjects
  | versionNumbers subject part =>
    exact (versionNumbers_tandem together subject part).map Result.numbers
  | schemaById id => exact (schemaById_tandem together id).map Result.schema
  | schemaAt subject part version =>
    exact (schemaAt_tandem together subject part version).map Result.info
  | deleteVersion subject part version =>
    exact (deleteVersion_tandem together subject part version).map Result.number
  | deleteSubject subject part =>
    exact (deleteSubject_tandem together subject part).map Result.numbers
  | globalMode => exact (globalMode_tandem together).map Result.mode
  | setGlobalMode mode => exact (setGlobalMode_tandem together mode).map Result.mode
  | modeOf subject part => exact (modeOf_tandem together subject part).map Result.mode
  | setModeOf subject part mode =>
    exact (setModeOf_tandem together subject part mode).map Result.mode
  | clearModeOf subject part => exact (clearModeOf_tandem together subject part).map Result.mode

end

end AvroRegistry.Registry
