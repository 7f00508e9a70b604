import AvroRegistry.Proofs.Registry.Histories
import AvroRegistry.Proofs.Registry.Rebuilt

/-!
# Content addressing

Along a history the schemas of a registry only ever get more, one at a time: what is stored stays in
its place, under its id, with the text that was submitted first. Ids are therefore handed out one
after the other, whatever is deleted or refused meanwhile. A schema that is registered successfully
is stored afterwards, under its fingerprint; if no two of the canonical texts that are submitted
have one fingerprint, under its canonical text, so ids tell canonical texts apart.
-/

namespace AvroRegistry

open Compatibility (Mode)

namespace Registry

section

variable {default : Mode} {start r r' : Registry} {history earlier later : List Deed} {deed : Deed}

/-! ## Steps -/

/-- A registration stores a schema: the canonical form has a new fingerprint and gets the next id,
even if it then turns out that no number is left for a version. -/
structure StoresNext (r : Registry) (op : Operation) (answer : Except Failure Result)
    (candidate : Schema.Canonical) : Prop where
  registers : ∃ subject part schema, op = .register subject part schema ∧
    canonicalOf schema = .ok candidate
  new : r.schemas.withFingerprint? (.str candidate.fingerprint) = none
  answered : answer = .ok (.id (r.schemas.lastId + 1)) ∨ answer = .error (.breakdown cellOverflow)

/-- An operation leaves the schemas as they were, or stores the next one. -/
theorem Effect.schemas {op : Operation} {answer : Except Failure Result}
    (effect : Effect r op answer r') :
    r'.schemas = r.schemas ∨ ∃ candidate, StoresNext r op answer candidate ∧
      r'.schemas = r.schemas.add (r.schemas.next candidate.text candidate.raw) := by
  cases effect with
  | stored placed accepted admits new =>
    exact .inr ⟨_, ⟨⟨_, _, _, rfl, accepted⟩, new, .inl rfl⟩, rfl⟩
  | exhausted accepted new => exact .inr ⟨_, ⟨⟨_, _, _, rfl, accepted⟩, new, .inr rfl⟩, rfl⟩
  | _ => exact .inl rfl

/-- What is live in a scope is stored under its fingerprint. -/
theorem withFingerprint?_of_live? {scope : Scope} {fingerprint : String} {info : SchemaInfo}
    (live : r.live? scope fingerprint = some info) :
    r.schemas.withFingerprint? (.str fingerprint) = some info.schema := by
  unfold live? at live
  cases known : r.schemas.withFingerprint? (.str fingerprint) with
  | none =>
    rw [known] at live
    cases live
  | some e =>
    rw [known] at live
    change ((r.versions.holding? scope (.int e.id)).bind fun version =>
      some (⟨scope, version.number, e⟩ : SchemaInfo)) = some info at live
    obtain ⟨version, -, same⟩ := Option.bind_eq_some_iff.1 live
    cases same
    rfl

/-- A schema that was registered is stored under its fingerprint. -/
theorem Effect.registered (sound : r.Sound default) {subject schema : Json} {part : Argument Part}
    {id : Int} (effect : Effect r (.register subject part schema) (.ok (.id id)) r') :
    ∃ candidate, canonicalOf schema = .ok candidate ∧ ∃ e ∈ r'.schemas.entries,
      e.id = id ∧ e.fingerprint = .str candidate.fingerprint := by
  cases effect with
  | looked other => cases other
  | deleted other => cases other
  | configured other => cases other
  | @held _ _ _ scope candidate info placed accepted live =>
    obtain ⟨mem, same⟩ := sound.schemas.withFingerprint?_some (withFingerprint?_of_live? live)
    exact ⟨candidate, accepted, info.schema, mem, rfl, same⟩
  | @appended _ _ _ scope candidate e file placed accepted admits known =>
    obtain ⟨mem, same⟩ := sound.schemas.withFingerprint?_some known
    exact ⟨candidate, accepted, e, mem, rfl, same⟩
  | @stored _ _ _ scope candidate file placed accepted admits new =>
    exact ⟨candidate, accepted, _, List.mem_append_right _ List.mem_cons_self, rfl, rfl⟩

/-- Opening a registry again on its file gives it back its schemas. -/
theorem Sound.schemas_reopened (sound : r.Sound default) {handle : Storage}
    (backed : r.storage = some handle) {other : Mode} {opened : Option Storage}
    (opening : (openWith other).outcome (some handle.reopened) = (.ok r', opened)) :
    r'.schemas = r.schemas := by
  obtain ⟨w, d, again, opening', -⟩ :=
    (sound.file handle backed).reopened sound.schemas sound.versions other
  cases opening'.symm.trans opening
  rfl

/-- A deed leaves the schemas as they were, or stores the next one. -/
theorem Does.schemas (does : Does r deed r') (sound : r.Sound default) :
    r'.schemas = r.schemas ∨ ∃ op answer candidate, deed = .performed op answer ∧
      StoresNext r op answer candidate ∧
      r'.schemas = r.schemas.add (r.schemas.next candidate.text candidate.raw) := by
  cases does with
  | perform op =>
    rcases (sound.perform_effect op).schemas with same | ⟨candidate, stores, more⟩
    · exact .inl same
    · exact .inr ⟨op, _, candidate, rfl, stores, more⟩
  | reopen backed opening => exact .inl (sound.schemas_reopened backed opening)

/-- Schemas stay in their places along a run. -/
theorem Run.schemas_prefix (run : Run start history r) (reachable : Reachable default start) :
    start.schemas.entries <+: r.schemas.entries := by
  induction run with
  | start => exact List.prefix_rfl
  | step before does ih =>
    obtain ⟨other, between⟩ := before.reachable reachable
    refine ih.trans ?_
    rcases does.schemas between.sound with same | ⟨_, _, _, -, -, more⟩
    · exact same ▸ List.prefix_rfl
    · rw [more]
      exact List.prefix_append _ _

end

/-- The ids of a store are the numbers from one on, in their order. -/
structure Numbered (s : Schemas) : Prop where
  ids : s.entries.map (·.id) = (List.range s.size).map fun k : Nat => (k : Int) + 1
  last : s.lastId = s.size

theorem Numbered.add {s : Schemas} (numbered : Numbered s) (canonical raw : String) :
    Numbered (s.add (s.next canonical raw)) where
  ids := by
    have size : (s.add (s.next canonical raw)).size = s.size + 1 := List.length_append
    rw [size, List.range_succ, List.map_append, ← numbered.ids]
    show (s.entries ++ [_]).map _ = _
    rw [List.map_append, List.map_singleton, List.map_singleton, ← numbered.last]
    rfl
  last := by
    have size : (s.add (s.next canonical raw)).size = s.size + 1 := List.length_append
    rw [size, Int.natCast_succ, ← numbered.last]
    show max s.lastId (s.lastId + 1) = _
    omega

/-! ## Histories of registrations -/

/-- A canonical form that was submitted for registration along a history. -/
def Submitted (history : List Deed) (candidate : Schema.Canonical) : Prop :=
  ∃ subject part schema answer, .performed (.register subject part schema) answer ∈ history ∧
    canonicalOf schema = .ok candidate

/-- A canonical form that was registered along a history and got an id. -/
def Registered (history : List Deed) (candidate : Schema.Canonical) (id : Int) : Prop :=
  ∃ subject part schema, .performed (.register subject part schema) (.ok (.id id)) ∈ history ∧
    canonicalOf schema = .ok candidate

/-- No two canonical texts that were submitted along a history have one fingerprint. -/
def Collisionless (history : List Deed) : Prop :=
  ∀ candidate candidate', Submitted history candidate → Submitted history candidate' →
    candidate.fingerprint = candidate'.fingerprint → candidate.text = candidate'.text

/-- A schema was stored by a registration of a history, with the texts submitted there. It was the
first one of its canonical text, and gave the id of the schema, unless no number was left for a
version. -/
structure FirstStored (history : List Deed) (e : StoredSchema) (earlier : List Deed)
    (candidate : Schema.Canonical) : Prop where
  deed : ∃ subject part schema answer later,
    history = earlier ++ .performed (.register subject part schema) answer :: later ∧
      canonicalOf schema = .ok candidate ∧
      (answer = .ok (.id e.id) ∨ answer = .error (.breakdown cellOverflow))
  first : ∀ other id, Registered earlier other id → other.text ≠ candidate.text
  fingerprint : e.fingerprint = .str candidate.fingerprint
  canonical : e.canonical = .str candidate.text
  raw : e.raw = .str candidate.raw

/-! ## What a history has stored -/

theorem Registered.submitted {history : List Deed} {candidate : Schema.Canonical} {id : Int}
    (registered : Registered history candidate id) : Submitted history candidate := by
  obtain ⟨subject, part, schema, mem, accepted⟩ := registered
  exact ⟨subject, part, schema, _, mem, accepted⟩

theorem FirstStored.append {history earlier : List Deed} {e : StoredSchema}
    {candidate : Schema.Canonical} (stored : FirstStored history e earlier candidate)
    (more : List Deed) : FirstStored (history ++ more) e earlier candidate where
  deed := by
    obtain ⟨subject, part, schema, answer, later, split, rest⟩ := stored.deed
    refine ⟨subject, part, schema, answer, later ++ more, ?_, rest⟩
    rw [split, List.append_assoc, List.cons_append]
  first := stored.first
  fingerprint := stored.fingerprint
  canonical := stored.canonical
  raw := stored.raw

theorem FirstStored.submitted {history earlier : List Deed} {e : StoredSchema}
    {candidate : Schema.Canonical} (stored : FirstStored history e earlier candidate) :
    Submitted history candidate := by
  obtain ⟨subject, part, schema, answer, later, split, accepted, -⟩ := stored.deed
  refine ⟨subject, part, schema, answer, ?_, accepted⟩
  rw [split]
  exact List.mem_append_right _ List.mem_cons_self

/-- What the schemas of a registry have to do with the history that led to it. -/
structure Tracks (history : List Deed) (r : Registry) : Prop where
  numbered : Numbered r.schemas
  stored : ∀ e ∈ r.schemas.entries, ∃ earlier candidate, FirstStored history e earlier candidate
  registered : ∀ candidate id, Registered history candidate id →
    ∃ e ∈ r.schemas.entries, e.id = id ∧ e.fingerprint = .str candidate.fingerprint

section

variable {default : Mode} {start r r' : Registry} {history : List Deed} {deed : Deed}

/-- A registration of a history that a deed has been added to is an earlier one or that deed. -/
theorem Registered.last {candidate : Schema.Canonical} {id : Int}
    (registered : Registered (history ++ [deed]) candidate id) :
    Registered history candidate id ∨ ∃ subject part schema,
      deed = .performed (.register subject part schema) (.ok (.id id)) ∧
        canonicalOf schema = .ok candidate := by
  obtain ⟨subject, part, schema, mem, accepted⟩ := registered
  rcases List.mem_append.1 mem with before | last
  · exact .inl ⟨subject, part, schema, before, accepted⟩
  · exact .inr ⟨subject, part, schema, (List.mem_singleton.1 last).symm, accepted⟩

theorem tracks_start (begins : Begins default start) : Tracks [] start := by
  have none : start.schemas = {} := by
    cases begins with
    | memory => rfl
    | file database unprepared opening =>
      cases (openWith_new database unprepared default).1.symm.trans opening
      rfl
  refine ⟨?_, ?_, ?_⟩
  · rw [none]
    exact ⟨rfl, rfl⟩
  · rw [none]
    exact nofun
  · rintro _ _ ⟨_, _, _, mem, _⟩
    cases mem

/-- A deed keeps track of the schemas. -/
theorem Tracks.does (tracks : Tracks history r) (reachable : Reachable default r)
    (does : Does r deed r') : Tracks (history ++ [deed]) r' := by
  have sound := reachable.sound
  have kept : r.schemas.entries ⊆ r'.schemas.entries :=
    (Run.schemas_prefix (.step .start does) reachable).subset
  have registered : ∀ candidate id, Registered (history ++ [deed]) candidate id →
      ∃ e ∈ r'.schemas.entries, e.id = id ∧ e.fingerprint = .str candidate.fingerprint := by
    intro candidate id registered
    rcases registered.last with before | ⟨subject, part, schema, rfl, accepted⟩
    · obtain ⟨e, mem, same⟩ := tracks.registered candidate id before
      exact ⟨e, kept mem, same⟩
    · generalize performed :
        Deed.performed (.register subject part schema) (.ok (.id id)) = deed at does
      cases does with
      | reopen => cases performed
      | perform op =>
        obtain ⟨rfl, answered⟩ := Deed.performed.inj performed
        have effect := sound.perform_effect (.register subject part schema)
        rw [← answered] at effect
        obtain ⟨candidate', accepted', stored⟩ := effect.registered sound
        cases accepted.symm.trans accepted'
        exact stored
  rcases does.schemas sound with same | ⟨op, answer, candidate, rfl, stores, more⟩
  · refine ⟨same ▸ tracks.numbered, fun e mem => ?_, registered⟩
    rw [same] at mem
    obtain ⟨earlier, candidate, stored⟩ := tracks.stored e mem
    exact ⟨earlier, candidate, stored.append [deed]⟩
  · refine ⟨more ▸ tracks.numbered.add _ _, fun e mem => ?_, registered⟩
    rw [more] at mem
    rcases List.mem_append.1 mem with old | new
    · obtain ⟨earlier, candidate, stored⟩ := tracks.stored e old
      exact ⟨earlier, candidate, stored.append _⟩
    · obtain ⟨subject, part, schema, rfl, accepted⟩ := stores.registers
      cases List.mem_singleton.1 new
      refine ⟨history, candidate, ⟨⟨subject, part, schema, answer, [], rfl, accepted,
        stores.answered⟩, fun other id before text => ?_, rfl, rfl, rfl⟩⟩
      -- A schema with the same text would have been stored under the fingerprint.
      obtain ⟨e, known, -, address⟩ := tracks.registered other id before
      have fingerprint : other.fingerprint = candidate.fingerprint :=
        congrArg Schema.fingerprint text
      rw [fingerprint] at address
      exact sound.schemas.withFingerprint?_none stores.new e known address

/-- A history keeps track of the schemas. -/
theorem Run.tracks (run : Run start history r) (begins : Begins default start) :
    Tracks history r := by
  induction run with
  | start => exact tracks_start begins
  | step before does ih =>
    obtain ⟨other, between⟩ := before.reachable begins.reachable
    exact ih.does between does

/-- A canonical form that was registered is stored as the first one of its text was submitted, if no
two texts have one fingerprint. -/
theorem Tracks.first (tracks : Tracks history r) (collisionless : Collisionless history)
    {candidate : Schema.Canonical} {id : Int} (registered : Registered history candidate id) :
    ∃ e ∈ r.schemas.entries, e.id = id ∧ e.fingerprint = .str candidate.fingerprint ∧
      e.canonical = .str candidate.text ∧
      ∃ earlier first, FirstStored history e earlier first := by
  obtain ⟨e, mem, named, address⟩ := tracks.registered candidate id registered
  obtain ⟨earlier, first, stored⟩ := tracks.stored e mem
  have fingerprint : first.fingerprint = candidate.fingerprint :=
    Json.str.inj (stored.fingerprint.symm.trans address)
  have text := collisionless first candidate stored.submitted registered.submitted fingerprint
  exact ⟨e, mem, named, address, text ▸ stored.canonical, earlier, first, stored⟩

theorem Collisionless.mono {more : List Deed} (collisionless : Collisionless more)
    (sub : history ⊆ more) : Collisionless history := by
  rintro candidate candidate' ⟨subject, part, schema, answer, mem, accepted⟩
    ⟨subject', part', schema', answer', mem', accepted'⟩
  exact collisionless candidate candidate' ⟨subject, part, schema, answer, sub mem, accepted⟩
    ⟨subject', part', schema', answer', sub mem', accepted'⟩

/-- The operations of a run, each with the answer that it gets. -/
def answered (r : Registry) : List Operation → List Deed
  | [] => []
  | op :: rest =>
    .performed op ((Registry.perform op).outcome r).1 ::
      answered ((Registry.perform op).outcome r).2 rest

/-- Carrying out operations is a run. -/
theorem run_answered (ops : List Operation) :
    ∀ {history : List Deed} {r : Registry}, Run start history r →
      Run start (history ++ answered r ops) (r.after ops) := by
  induction ops with
  | nil =>
    intro history r run
    exact (List.append_nil history).symm ▸ run
  | cons op rest ih =>
    intro history r run
    have next := ih (.step run (.perform op))
    rw [List.append_assoc] at next
    exact next

theorem mem_of_answered {op : Operation} {answer : Except Failure Result} (ops : List Operation) :
    ∀ {r : Registry}, .performed op answer ∈ answered r ops → op ∈ ops := by
  induction ops with
  | nil => exact fun mem => (List.not_mem_nil mem).elim
  | cons first rest ih =>
    intro r mem
    rcases List.mem_cons.1 mem with here | later
    · exact (Deed.performed.inj here).1 ▸ List.mem_cons_self
    · exact List.mem_cons_of_mem first (ih later)

/-- The canonical text of a schema given as an argument, if there is one. -/
def textOf? (schema : Json) : Option String :=
  match canonicalOf schema with
  | .ok candidate => some candidate.text
  | .error _ => none

theorem text_of_textOf? {schema : Json} {text : String} (has : textOf? schema = some text)
    {candidate : Schema.Canonical} (accepted : canonicalOf schema = .ok candidate) :
    candidate.text = text := by
  unfold textOf? at has
  rw [accepted] at has
  exact Option.some.inj has

theorem canonicalOf_of_textOf? {schema : Json} {text : String} (has : textOf? schema = some text) :
    ∃ candidate, canonicalOf schema = .ok candidate ∧ candidate.text = text := by
  cases accepted : canonicalOf schema with
  | ok candidate => exact ⟨candidate, rfl, text_of_textOf? has accepted⟩
  | error failure =>
    unfold textOf? at has
    rw [accepted] at has
    cases has

/-- One schema is registered twice, in two spellings, and deleted in between. -/
def twoSpellings : List Operation :=
  [.register (.str "orders") (.typed .value) (.str "\"string\""),
    .deleteSubject (.str "orders") (.typed .value),
    .register (.str "payments") (.typed .value) (.str "\x7b\"type\": \"string\"\x7d")]

end

end Registry

end AvroRegistry
