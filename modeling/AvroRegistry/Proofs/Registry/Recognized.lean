import AvroRegistry.Proofs.Registry.DryRun
import AvroRegistry.Proofs.Registry.Standing

/-!
# What is live is recognized

A scope recognizes a schema that one of its live versions holds: registering it again gives the id
under every mode, and checking it gives the version. Whether a schema is held is looked up through
its fingerprint and the id under it, whichever scope the schema was stored for; the look-up finds
the one live version that holds it, if there is one (`Sound.live?_of_points`).

A schema that is not live in a scope comes in under the next number of the scope, above all that
were ever given out there, and is recognized from then on in every spelling, until that version is
deleted.
-/

namespace AvroRegistry.Registry

open Compatibility (Mode)

/-- A number has been given to a version of a scope at some moment of a history. -/
def Assigned (start : Registry) (history : List Deed) (scope : Scope) (n : Int) : Prop :=
  ∃ earlier later moment, history = earlier ++ later ∧ Run start earlier moment ∧
    ∃ version ∈ moment.versions.rows, version.scope = scope ∧ version.number = n

/-- No other stored text has the fingerprint of a schema. -/
def SetsApart (r : Registry) (candidate : Schema.Canonical) : Prop :=
  ∀ e ∈ r.schemas.entries, ∀ text, e.canonical = .str text →
    Schema.fingerprint text = candidate.fingerprint → text = candidate.text

section

variable {default : Mode} {start r r' : Registry} {history : List Deed} {scope : Scope}
  {candidate : Schema.Canonical} {subject schema : Json} {part : Argument Part}

/-! ## Numbers given out -/

theorem Does.keeps {deed : Deed} (does : Does r deed r') (sound : r.Sound default) :
    Keeps r r' := by
  cases does with
  | perform op => exact (sound.perform op).2.1
  | reopen backed opening =>
    obtain ⟨again, opened, opening', -, keeps⟩ := sound.reopened backed _
    cases opening'.symm.trans opening
    exact keeps

/-- No version is ever lost. -/
theorem Run.keeps (run : Run r history r') (reachable : Reachable default r) : Keeps r r' := by
  induction run with
  | start => exact .of_eq rfl
  | step before does ih =>
    obtain ⟨other, between⟩ := before.reachable reachable
    intro version known
    obtain ⟨version', known', placed, number, points⟩ := ih version known
    obtain ⟨kept, listed, placed', number', points'⟩ := does.keeps between.sound version' known'
    exact ⟨kept, listed, placed'.trans placed, number'.trans number, points'.trans points⟩

/-- The numbers that were ever given out in a scope are those of its versions, live or deleted. -/
theorem Run.assigned_iff (run : Run start history r) (begins : Begins default start) (n : Int) :
    Assigned start history scope n ↔
      ∃ version ∈ r.versions.rows, version.scope = scope ∧ version.number = n := by
  constructor
  · rintro ⟨earlier, later, moment, whole, first, version, known, placed, number⟩
    obtain ⟨moment', first', rest⟩ := run.split whole
    cases first.unique first'
    obtain ⟨other, reachable⟩ := first.reachable begins.reachable
    obtain ⟨version', known', same, same', -⟩ := rest.keeps reachable version known
    exact ⟨version', known', same.trans placed, same'.trans number⟩
  · intro given
    exact ⟨history, [], r, (List.append_nil history).symm, run, given⟩

/-- The highest number of a scope is the highest that was ever given out there. -/
theorem Run.highest (run : Run start history r) (begins : Begins default start) (scope : Scope) :
    (r.versions.maxNumber scope = 0 ∧ ∀ n, ¬ Assigned start history scope n) ∨
      (Assigned start history scope (r.versions.maxNumber scope) ∧
        ∀ n, Assigned start history scope n → n ≤ r.versions.maxNumber scope) := by
  obtain ⟨other, reachable⟩ := run.reachable begins.reachable
  rcases r.versions.maxNumber_cases scope with ⟨zero, none⟩ | given
  · refine .inl ⟨zero, fun n assigned => ?_⟩
    obtain ⟨version, known, placed, -⟩ := (run.assigned_iff begins n).1 assigned
    exact none version known placed
  · refine .inr ⟨(run.assigned_iff begins _).2 given, fun n assigned => ?_⟩
    obtain ⟨version, known, rfl, rfl⟩ := (run.assigned_iff begins n).1 assigned
    exact reachable.sound.versions.le_maxNumber known

/-! ## Checking -/

section

variable (placed : scopeOf subject part = .ok scope) (accepted : canonicalOf schema = .ok candidate)

include placed accepted

theorem check_empty (empty : r.versions.history scope = []) :
    (check subject part schema).outcome r =
      (.error (.fault (.subjectNotFound (.str scope.render))), r) := by
  unfold check
  rw [settle_ok_outcome placed, settle_ok_outcome accepted, Step.bind_of_ok (Step.outcome_get r)]
  dsimp only
  rw [empty]
  rfl

theorem check_filled (filled : r.versions.history scope ≠ []) :
    (check subject part schema).outcome r =
      match r.live? scope candidate.fingerprint with
      | some info => (.ok info, r)
      | none =>
        (.error (.fault (.schemaNotFound (.str scope.render) (.str candidate.fingerprint))),
          r) := by
  have some : (r.versions.history scope).isEmpty = false := by simpa using filled
  unfold check
  rw [settle_ok_outcome placed, settle_ok_outcome accepted, Step.bind_of_ok (Step.outcome_get r)]
  dsimp only
  rw [some, if_neg Bool.false_ne_true]
  cases r.live? scope candidate.fingerprint <;> rfl

/-- A live version that points at the schema with the fingerprint of another one is what a check of
that one gives. -/
theorem Sound.check_points (sound : r.Sound default) {e : StoredSchema}
    (stored : e ∈ r.schemas.entries) (address : e.fingerprint = .str candidate.fingerprint)
    {version : Version} (live : version ∈ r.versions.history scope)
    (points : version.schemaId = .int e.id) :
    (check subject part schema).outcome r = (.ok ⟨scope, version.number, e⟩, r) := by
  rw [check_filled placed accepted (List.ne_nil_of_mem live),
    sound.live?_of_points stored address live points]

/-! ## Registering -/

/-- A schema that is not live in a scope is registered by appending the next version of the
scope. -/
theorem Sound.register_appends (sound : r.Sound default)
    (unheld : r.live? scope candidate.fingerprint = none) {id : Int}
    (ok : (register subject part schema).outcome r = (.ok id, r')) :
    r'.versions = r.versions.add (r.versions.next scope id) ∧ r'.config = r.config ∧
      ∃ e ∈ r'.schemas.entries, e.id = id ∧ e.fingerprint = .str candidate.fingerprint ∧
        (e ∈ r.schemas.entries ∨ e.canonical = .str candidate.text) := by
  have effect := makes_register sound subject part schema
  unfold Makes at effect
  rw [ok] at effect
  change Effect r (.register subject part schema) (.ok (.id id)) r' at effect
  cases effect with
  | looked other => cases other
  | deleted other => cases other
  | configured other => cases other
  | held placed' accepted' live =>
    cases placed.symm.trans placed'
    cases accepted.symm.trans accepted'
    cases unheld.symm.trans live
  | appended placed' accepted' admits known =>
    cases placed.symm.trans placed'
    cases accepted.symm.trans accepted'
    obtain ⟨stored, address⟩ := sound.schemas.withFingerprint?_some known
    exact ⟨rfl, rfl, _, stored, rfl, address, .inl stored⟩
  | stored placed' accepted' admits new =>
    cases placed.symm.trans placed'
    cases accepted.symm.trans accepted'
    exact ⟨rfl, rfl, _, List.mem_append_right _ List.mem_cons_self, rfl, rfl, .inr rfl⟩

end

/-! ## Until it is deleted -/

/-- The text of a schema that sets itself apart is that of any stored schema with its
fingerprint. -/
theorem Sound.canonical_of_address (sound : r.Sound default) (apart : r.SetsApart candidate)
    {e : StoredSchema} (stored : e ∈ r.schemas.entries)
    (address : e.fingerprint = .str candidate.fingerprint) : e.canonical = .str candidate.text := by
  obtain ⟨text, raw, body, -, address'⟩ := sound.schemas.addressed e stored
  rw [body, apart e stored text body (Json.str.inj (address'.symm.trans address))]

/-- A schema that no live version of a scope holds is not live there, if it sets itself apart. -/
theorem Sound.unheld_of_setsApart (sound : r.Sound default) (apart : r.SetsApart candidate)
    (absent : ¬ r.Holds scope candidate.text) : r.live? scope candidate.fingerprint = none := by
  refine sound.unheld (fun text holds same => ?_) absent
  obtain ⟨version, live, e, found, body⟩ := holds
  obtain ⟨e', stored, -, found'⟩ := sound.schemaOf (Versions.mem_history.1 live).1
  cases found.symm.trans found'
  exact apart e stored text body same

/-- A schema is recognized as a version of a scope: from some moment on, until the version is
deleted, checking any schema with its canonical text gives that version. -/
def Recognizes (r : Registry) (scope : Scope) (candidate : Schema.Canonical) (number : Int)
    (e : StoredSchema) : Prop :=
  ∀ later moment, Run r later moment → (∀ deed ∈ later, ¬ deed.Deletes scope number) →
    ∀ subject part schema other, scopeOf subject part = .ok scope →
      canonicalOf schema = .ok other → other.text = candidate.text →
        (check subject part schema).outcome moment = (.ok ⟨scope, number, e⟩, moment)

theorem Reachable.recognizes (reachable : Reachable default r) {e : StoredSchema}
    (stored : e ∈ r.schemas.entries) (address : e.fingerprint = .str candidate.fingerprint)
    {version : Version} (live : version ∈ r.versions.history scope)
    (points : version.schemaId = .int e.id) : r.Recognizes scope candidate version.number e := by
  intro later moment run spared subject part schema other placed accepted same
  obtain ⟨d, reachable'⟩ := run.reachable reachable
  have standing := run.stands reachable live spared
  refine reachable'.sound.check_points placed accepted ?_ ?_ standing points
  · exact (run.schemas_prefix reachable).subset stored
  · rw [address, Schema.Canonical.fingerprint, Schema.Canonical.fingerprint, same]

/-- The identity of live schemas, at every moment of every history.

If a live version of a scope holds the canonical text of a schema, registering the schema there
gives the id that the version points at, under every mode, and changes nothing; checking it gives
the version. If none does, a check tells whether the scope has live versions at all; and a
registration that succeeds appends one version, whose number is one above the highest that was ever
given out in the scope, and which is what checks give from then on until it is deleted. No other
stored text may have the fingerprint of the schema. -/
theorem Begins.live_identity (begins : Begins default start) (run : Run start history r)
    (placed : scopeOf subject part = .ok scope) (accepted : canonicalOf schema = .ok candidate) :
    (∀ version ∈ r.versions.history scope, ∀ e, r.schemaOf version = .ok e →
      e.canonical = .str candidate.text →
        (∀ config, (register subject part schema).outcome { r with config := config } =
          (.ok e.id, { r with config := config })) ∧
        (check subject part schema).outcome r = (.ok ⟨scope, version.number, e⟩, r) ∧
        r.Recognizes scope candidate version.number e) ∧
    (¬ r.Holds scope candidate.text → r.SetsApart candidate →
      (r.versions.history scope = [] → (check subject part schema).outcome r =
        (.error (.fault (.subjectNotFound (.str scope.render))), r)) ∧
      (r.versions.history scope ≠ [] → (check subject part schema).outcome r =
        (.error (.fault (.schemaNotFound (.str scope.render) (.str candidate.fingerprint))), r)) ∧
      ∀ id r', (register subject part schema).outcome r = (.ok id, r') →
        ∃ highest, ((highest = 0 ∧ ∀ n, ¬ Assigned start history scope n) ∨
            (Assigned start history scope highest ∧
              ∀ n, Assigned start history scope n → n ≤ highest)) ∧
          r'.versions.rows = r.versions.rows ++ [⟨scope, highest + 1, .int id, false⟩] ∧
          r'.config = r.config ∧
          ∃ e, e.id = id ∧ e.canonical = .str candidate.text ∧
            r'.Recognizes scope candidate (highest + 1) e) := by
  obtain ⟨other, reachable⟩ := run.reachable begins.reachable
  have sound := reachable.sound
  constructor
  · intro version live e held body
    obtain ⟨e', stored, points, held'⟩ := sound.schemaOf (Versions.mem_history.1 live).1
    cases held'.symm.trans held
    obtain ⟨text, raw, body', -, address⟩ := sound.schemas.addressed e stored
    cases body'.symm.trans body
    have known := sound.live?_of_points stored address live points
    refine ⟨fun config => ?_, sound.check_points placed accepted stored address live points,
      reachable.recognizes stored address live points⟩
    have known' : ({ r with config := config } : Registry).live? scope candidate.fingerprint =
        some ⟨scope, version.number, e⟩ := known
    exact register_live placed accepted known'
  · intro absent apart
    have unheld := sound.unheld_of_setsApart apart absent
    refine ⟨fun empty => check_empty placed accepted empty, fun filled => ?_, ?_⟩
    · rw [check_filled placed accepted filled, unheld]
    · intro id r' ok
      obtain ⟨versions, config, e, stored, rfl, address, origin⟩ :=
        sound.register_appends placed accepted unheld ok
      have reachable' : Reachable other r' := by
        have after : ((Registry.perform (.register subject part schema)).outcome r).2 = r' :=
          (congrArg Prod.snd (Step.outcome_map (register subject part schema) Result.id r)).trans
            (congrArg Prod.snd ok)
        exact after ▸ reachable.perform (.register subject part schema)
      have body : e.canonical = .str candidate.text :=
        origin.elim (fun old => sound.canonical_of_address apart old address) id
      have live : r.versions.next scope e.id ∈ r'.versions.history scope := by
        rw [versions, Versions.history_next]
        exact List.mem_append_right _ List.mem_cons_self
      refine ⟨r.versions.maxNumber scope, run.highest begins scope, ?_, config, e, rfl, body, ?_⟩
      · rw [versions]
        rfl
      · exact reachable'.recognizes stored address live rfl

/-- A schema that was deleted in the scope it was first registered in, and is live in another one,
comes in again as the second version of the first scope, and is recognized as that. -/
theorem twoSpellings_live_identity :
    (check (.str "orders") (.typed .value) (.str "\"string\"")).outcome
        (after (fresh .full none) twoSpellings) =
      (.error (.fault (.subjectNotFound (.str orders.render))),
        after (fresh .full none) twoSpellings) ∧
    ∃ r' e, (register (.str "orders") (.typed .value) (.str "\"string\"")).outcome
        (after (fresh .full none) twoSpellings) = (.ok 1, r') ∧
      r'.versions.rows = (after (fresh .full none) twoSpellings).versions.rows ++
        [⟨orders, 2, .int 1, false⟩] ∧
      (check (.str "orders") (.typed .value) (.str "\"string\"")).outcome r' =
        (.ok ⟨orders, 2, e⟩, r') := by
  have run := run_answered twoSpellings (.start : Run (fresh .full none) [] (fresh .full none))
  rw [List.nil_append] at run
  have placed : scopeOf (.str "orders") (.typed .value) = .ok orders := rfl
  obtain ⟨c, accepted, text⟩ := canonicalOf_of_textOf?
    (show textOf? (.str "\"string\"") = some "\"string\"" by decide +kernel)
  have empty : (after (fresh .full none) twoSpellings).versions.history orders = [] := by
    decide +kernel
  have bodies : (after (fresh .full none) twoSpellings).schemas.entries.map (·.canonical) =
      [.str "\"string\""] := by decide +kernel
  have given : ((register (.str "orders") (.typed .value) (.str "\"string\"")).outcome
      (after (fresh .full none) twoSpellings)).1.toOption = some 1 := by decide +kernel
  have numbers : ((register (.str "orders") (.typed .value) (.str "\"string\"")).outcome
      (after (fresh .full none) twoSpellings)).2.versions.rows.map (·.number) = [1, 1, 2] := by
    decide +kernel
  have rows : (after (fresh .full none) twoSpellings).versions.rows.map (·.number) = [1, 1] := by
    decide +kernel
  obtain ⟨-, comes⟩ := (Begins.memory .full).live_identity run placed accepted
  generalize after (fresh .full none) twoSpellings = r at *
  have absent : ¬ r.Holds orders c.text := by
    rintro ⟨version, live, -⟩
    exact List.not_mem_nil (empty ▸ live)
  have apart : r.SetsApart c := by
    intro e stored other body _
    have listed : e.canonical ∈ r.schemas.entries.map (·.canonical) := List.mem_map_of_mem stored
    rw [bodies, List.mem_singleton, body] at listed
    rw [text, Json.str.inj listed]
  obtain ⟨missing, -, registers⟩ := comes absent apart
  have ok := Step.outcome_of_gives given
  generalize ((register (.str "orders") (.typed .value) (.str "\"string\"")).outcome r).2 = r' at *
  obtain ⟨highest, -, appended, -, e, -, -, recognizes⟩ := registers 1 r' ok
  rw [appended, List.map_append, rows] at numbers
  obtain rfl : highest = 1 := by
    have second : highest + 1 = 2 := by simpa using numbers
    omega
  exact ⟨missing empty, r', e, ok, appended,
    recognizes [] r' .start (List.forall_mem_nil _) _ _ _ c placed accepted rfl⟩

end

end AvroRegistry.Registry
