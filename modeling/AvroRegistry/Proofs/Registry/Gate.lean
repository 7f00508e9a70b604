import AvroRegistry.Proofs.Compatibility.Reread
import AvroRegistry.Proofs.Compatibility.Verdict
import AvroRegistry.Proofs.Registry.Admitting
import AvroRegistry.Proofs.Registry.Parsed

/-!
# The compatibility gate

A schema is held against the live versions of its scope once, when a version is appended, as it was
submitted against stored bodies as they parse. If every version of a scope came in under a
transitive mode that checks one direction, then at any later moment any two live versions of the
scope pass the check in that direction, both as they parse (`live_versions_compatible`). Versions
that are deleted only leave fewer pairs; a schema that is registered again comes in as a new
version, and is held against those that are live then; whatever happens to modes between two
registrations does not matter.
-/

namespace AvroRegistry

open Compatibility (Mode Direction checkReaderWriter)
open Json (arranged)

/-! ## Directions -/

namespace Compatibility

/-- Whether two canonical forms pass does not depend on the order of their members. -/
theorem check_arranged {schema schema' : Json} {older newer : Schema.Canonical}
    (canonical : Schema.canonicalize schema = .ok older)
    (canonical' : Schema.canonicalize schema' = .ok newer) (direction : Direction)
    (l m : Json.Layout) :
    direction.check (arranged l older.value) (arranged m newer.value) = .ok [] ↔
      direction.check older.value newer.value = .ok [] := by
  have linked := linked_of_canonicalize canonical
  have linked' := linked_of_canonicalize canonical'
  have plain := Schema.Canonical.plain canonical
  have plain' := Schema.Canonical.plain canonical'
  cases direction with
  | backward => exact finds_nothing_arranged m l linked' linked plain' plain
  | forward => exact finds_nothing_arranged l m linked linked' plain plain'

end Compatibility

/-! ## Live versions -/

namespace Versions

theorem filter_marked (marks : Scope) (numbers : List Int) (rows : List Version) :
    ((rows.map (marked marks numbers)).filter fun r => !r.deleted).Sublist
      (rows.filter fun r => !r.deleted) := by
  induction rows with
  | nil => exact .slnil
  | cons r rest ih =>
    rw [List.map_cons, List.filter_cons, List.filter_cons]
    by_cases hit : r.scope = marks ∧ r.number ∈ numbers
    · have gone : marked marks numbers r = { r with deleted := true } := if_pos hit
      rw [gone, if_neg (by simp)]
      split
      · exact ih.cons r
      · exact ih
    · have same : marked marks numbers r = r := if_neg hit
      rw [same]
      split
      · exact ih.cons_cons r
      · exact ih

/-- Marking leaves some of the live versions, in their order. -/
theorem history_mark (v : Versions) (marks : Scope) (numbers : List Int) (scope : Scope) :
    ((v.mark marks numbers).history scope).Sublist (v.history scope) := by
  unfold history
  rw [ofScope_mark]
  exact filter_marked marks numbers _

theorem ofScope_next_other {scope other : Scope} (differ : other ≠ scope) (v : Versions)
    (id : Int) :
    (v.add (v.next other id)).ofScope scope = v.ofScope scope := by
  rw [ofScope_add, List.filter_eq_nil_iff.2, List.append_nil]
  intro r mem
  rw [List.mem_singleton.1 mem]
  show ¬ (other == scope) = true
  simpa using differ

end Versions

namespace Registry

section

variable {default : Mode} {start r r' : Registry} {history : List Deed} {deed : Deed}
  {scope : Scope} {direction : Direction}

/-- A schema comes into a scope as its next version. -/
structure Enters (r : Registry) (op : Operation) (r' : Registry) (scope : Scope)
    (candidate : Schema.Canonical) (e : StoredSchema) : Prop where
  registers : ∃ subject part schema, op = .register subject part schema ∧
    canonicalOf schema = .ok candidate
  admits : r.Admits scope candidate
  stored : e ∈ r'.schemas.entries
  address : e.fingerprint = .str candidate.fingerprint
  versions : r'.versions = r.versions.add (r.versions.next scope e.id)

/-- An operation leaves some of the live versions of a scope, or a schema comes into it. -/
theorem Effect.live {op : Operation} {answer : Except Failure Result}
    (effect : Effect r op answer r') (sound : r.Sound default) (scope : Scope) :
    (r'.versions.history scope).Sublist (r.versions.history scope) ∨
      ∃ candidate e, Enters r op r' scope candidate e := by
  have elsewhere : ∀ {other : Scope} {id : Int}, other ≠ scope →
      (r.versions.add (r.versions.next other id)).history scope = r.versions.history scope :=
    fun differ => Versions.history_congr (Versions.ofScope_next_other differ r.versions _)
  cases effect with
  | @appended _ _ _ other candidate e _ placed accepted admits known =>
    obtain ⟨mem, address⟩ := sound.schemas.withFingerprint?_some known
    by_cases same : other = scope
    · subst same
      exact .inr ⟨candidate, e, ⟨_, _, _, rfl, accepted⟩, admits, mem, address, rfl⟩
    · exact .inl (elsewhere same ▸ List.Sublist.refl _)
  | @stored _ _ _ other candidate _ placed accepted admits new =>
    by_cases same : other = scope
    · subst same
      exact .inr ⟨candidate, _, ⟨_, _, _, rfl, accepted⟩, admits,
        List.mem_append_right _ List.mem_cons_self, rfl, rfl⟩
    · exact .inl (elsewhere same ▸ List.Sublist.refl _)
  | deleted => exact .inl (Versions.history_mark r.versions _ _ scope)
  | _ => exact .inl (List.Sublist.refl _)

/-! ## Versions that pass -/

/-- Two versions parse to schemas that pass in a direction, the first one as the older. -/
def Passes (direction : Direction) (r : Registry) (old new : Version) : Prop :=
  ∃ w x, r.formOf old = .ok w ∧ r.formOf new = .ok x ∧ direction.check w x = .ok []

/-- All live versions of a scope parse to schemas that pass with each other. -/
def AllPass (direction : Direction) (r : Registry) (scope : Scope) : Prop :=
  (r.versions.history scope).Pairwise (Passes direction r)

/-- The body that is stored under the fingerprint of a submitted schema parses to its value. -/
theorem Tracks.parsed_as (tracks : Tracks history r) (collisionless : Collisionless history)
    (numbers : NumbersReadBack history) {e : StoredSchema} (mem : e ∈ r.schemas.entries)
    {candidate : Schema.Canonical} (submitted : Submitted history candidate)
    (address : e.fingerprint = .str candidate.fingerprint) :
    Schemas.formOf e = .ok (arranged Json.compact candidate.value) := by
  obtain ⟨earlier, first, stored⟩ := tracks.stored e mem
  have fingerprint : first.fingerprint = candidate.fingerprint :=
    Json.str.inj (stored.fingerprint.symm.trans address)
  have text := collisionless first candidate stored.submitted submitted fingerprint
  exact formOf_submitted numbers submitted (text ▸ stored.canonical)

/-- Two versions that pass still do in a registry that stores no less. -/
theorem Passes.later {old new : Version} (passes : Passes direction r old new)
    (sound : r.Sound default) {other : Mode} (later : r'.Sound other)
    (kept : r.schemas.entries ⊆ r'.schemas.entries) (hold : old ∈ r.versions.history scope)
    (hnew : new ∈ r.versions.history scope) : Passes direction r' old new := by
  obtain ⟨w, x, parsed, parsed', check⟩ := passes
  have known := (Versions.mem_history.1 hold).1
  have known' := (Versions.mem_history.1 hnew).1
  exact ⟨w, x, (sound.formOf_later later kept known).trans parsed,
    (sound.formOf_later later kept known').trans parsed', check⟩

/-- So do all live versions if there are no more of them. -/
theorem AllPass.later (all : AllPass direction r scope) (sound : r.Sound default) {other : Mode}
    (later : r'.Sound other) (kept : r.schemas.entries ⊆ r'.schemas.entries)
    (fewer : (r'.versions.history scope).Sublist (r.versions.history scope)) :
    AllPass direction r' scope :=
  (all.sublist fewer).imp_of_mem fun hold hnew passes =>
    passes.later sound later kept (fewer.subset hold) (fewer.subset hnew)

/-- A schema that comes into a scope under a transitive mode passes with all that are live. -/
theorem AllPass.entered (all : AllPass direction r scope) (sound : r.Sound default) {other : Mode}
    (later : r'.Sound other) (kept : r.schemas.entries ⊆ r'.schemas.entries)
    (tracks : Tracks history r') (collisionless : Collisionless history)
    (numbers : NumbersReadBack history) {op : Operation} {candidate : Schema.Canonical}
    {e : StoredSchema} (enters : Enters r op r' scope candidate e)
    (submitted : Submitted history candidate)
    (transitive : (r.config.effective scope).isTransitive = true)
    (checks : (r.config.effective scope).checks direction = true) :
    AllPass direction r' scope := by
  have live : r'.versions.history scope =
      r.versions.history scope ++ [r.versions.next scope e.id] := by
    rw [enters.versions, Versions.history_next]
  unfold AllPass
  rw [live, List.pairwise_append]
  refine ⟨?_, List.pairwise_singleton _ _, ?_⟩
  · exact all.imp_of_mem fun hold hnew passes => passes.later sound later kept hold hnew
  · intro old mem new single
    rw [List.mem_singleton.1 single]
    have asked : old ∈ references (r.config.effective scope) (r.versions.history scope) := by
      rw [references, if_pos transitive]
      exact mem
    obtain ⟨w, parsed, each⟩ := enters.admits.passes old asked
    have check := each direction checks
    have known := (Versions.mem_history.1 mem).1
    -- The older body is the text of a submitted schema, and the new one that of the candidate.
    obtain ⟨e', stored, points, -⟩ := sound.schemaOf known
    obtain ⟨first, submitted', parsed'⟩ := tracks.parsed numbers (kept stored)
    rw [sound.formOf_stored stored points, parsed'] at parsed
    cases parsed
    have body := tracks.parsed_as collisionless numbers enters.stored submitted enters.address
    obtain ⟨schema, canonical⟩ := submitted'.canonical
    obtain ⟨schema', canonical'⟩ := submitted.canonical
    have passes := Compatibility.check_arranged canonical canonical' direction Json.compact
    refine ⟨_, _, ?_, ?_, (passes Json.compact).2 ?_⟩
    · rw [later.formOf_stored (kept stored) points, parsed']
    · rw [later.formOf_stored enters.stored rfl, body]
    · refine (passes Json.spaced).1 ?_
      rw [Json.arranged_of_unsorted Json.spaced rfl]
      exact check

/-! ## Gated scopes -/

/-- A deed appends a version to a scope: a registration after which the scope has one more. -/
structure Appends (before : Registry) (deed : Deed) (after : Registry) (scope : Scope) : Prop where
  registers : ∃ subject part schema answer,
    deed = .performed (.register subject part schema) answer
  more : ∃ version, after.versions.ofScope scope = before.versions.ofScope scope ++ [version]

/-- Whenever a history appended a version to a scope, the mode in effect for it was transitive and
checked a direction. -/
def Gated (start : Registry) (history : List Deed) (scope : Scope) (direction : Direction) : Prop :=
  ∀ earlier deed later before after, history = earlier ++ deed :: later →
    Run start earlier before → Does before deed after → Appends before deed after scope →
      (before.config.effective scope).isTransitive = true ∧
        (before.config.effective scope).checks direction = true

theorem Gated.mono {earlier later : List Deed}
    (gated : Gated start (earlier ++ later) scope direction) :
    Gated start earlier scope direction := by
  intro first deed rest before after split
  refine gated first deed (rest ++ later) before after ?_
  rw [split, List.append_assoc, List.cons_append]

/-- A deed of a gated history keeps all live versions passing. -/
theorem AllPass.does (all : AllPass direction r scope) (run : Run start history r)
    (begins : Begins default start) (does : Does r deed r')
    (collisionless : Collisionless (history ++ [deed]))
    (numbers : NumbersReadBack (history ++ [deed]))
    (gated : Gated start (history ++ [deed]) scope direction) : AllPass direction r' scope := by
  obtain ⟨_, reachable⟩ := run.reachable begins.reachable
  obtain ⟨_, reachable'⟩ := does.reachable reachable
  have kept : r.schemas.entries ⊆ r'.schemas.entries :=
    (Run.schemas_prefix (.step .start does) reachable).subset
  have tracks := (run.tracks begins).does reachable does
  have condition := gated history deed [] r r' rfl run does
  cases does with
  | reopen backed opening =>
    obtain ⟨w, d, opened, opening', -, -, -, scopes, -⟩ :=
      (reachable.sound.file _ backed).reopened reachable.sound.schemas reachable.sound.versions _
    cases opening'.symm.trans opening
    exact all.later reachable.sound reachable'.sound kept
      (Versions.history_congr (scopes scope) ▸ List.Sublist.refl _)
  | perform op =>
    rcases (reachable.sound.perform_effect op).live reachable.sound scope with
      fewer | ⟨candidate, e, enters⟩
    · exact all.later reachable.sound reachable'.sound kept fewer
    · obtain ⟨subject, part, schema, rfl, accepted⟩ := enters.registers
      have more := Versions.ofScope_next r.versions scope e.id
      rw [← enters.versions] at more
      obtain ⟨transitive, checks⟩ := condition ⟨⟨subject, part, schema, _, rfl⟩, _, more⟩
      exact all.entered reachable.sound reachable'.sound kept tracks collisionless numbers enters
        ⟨subject, part, schema, _, List.mem_append_right _ List.mem_cons_self, accepted⟩
        transitive checks

theorem Run.allPass (run : Run start history r) (begins : Begins default start)
    (collisionless : Collisionless history) (numbers : NumbersReadBack history)
    (gated : Gated start history scope direction) : AllPass direction r scope := by
  induction run with
  | start =>
    have none : start.versions = {} := by
      cases begins with
      | memory => rfl
      | file database unprepared opening =>
        cases (openWith_new database unprepared _).1.symm.trans opening
        rfl
    unfold AllPass
    rw [none]
    exact .nil
  | @step history deed r r' before does ih =>
    have sub := List.subset_append_left history [deed]
    exact (ih (collisionless.mono sub) (numbers.mono sub) gated.mono).does before begins does
      collisionless numbers gated

/-- Of two live versions with numbers in order, the one with the smaller number is listed first. -/
theorem AllPass.of_lt (all : AllPass direction r scope) (sound : r.Sound default)
    {old new : Version} (hold : old ∈ r.versions.history scope)
    (hnew : new ∈ r.versions.history scope) (order : old.number < new.number) :
    Passes direction r old new := by
  have ascending := sound.versions.history_ascending scope
  have forward : (r.versions.history scope).Pairwise fun a b =>
      a.number < b.number → Passes direction r a b := by
    refine List.Pairwise.imp ?_ all
    exact fun passes _ => passes
  have backward : (r.versions.history scope).Pairwise (flip fun a b =>
      a.number < b.number → Passes direction r a b) := by
    refine ascending.imp fun {a b} lt gt => ?_
    exact absurd gt (Int.not_lt.2 (Int.le_of_lt lt))
  refine forward.forall_of_forall_of_flip (fun a _ lt => ?_) backward hold hnew order
  exact absurd lt (Int.lt_irrefl _)

/-- The compatibility gate over whole histories: if every version of a scope came in under a
transitive mode that checks a direction, any two live versions of it pass in that direction, as
their stored bodies parse. No two of the submitted texts may have one fingerprint, and their real
numbers have to be read back as they were written. -/
theorem live_versions_compatible (begins : Begins default start) (run : Run start history r)
    (collisionless : Collisionless history) (numbers : NumbersReadBack history) (scope : Scope) :
    (Gated start history scope .backward →
      ∀ old ∈ r.versions.history scope, ∀ new ∈ r.versions.history scope,
        old.number < new.number → ∃ w x, r.formOf old = .ok w ∧ r.formOf new = .ok x ∧
          checkReaderWriter x w = .ok []) ∧
    (Gated start history scope .forward →
      ∀ old ∈ r.versions.history scope, ∀ new ∈ r.versions.history scope,
        old.number < new.number → ∃ w x, r.formOf old = .ok w ∧ r.formOf new = .ok x ∧
          checkReaderWriter w x = .ok []) := by
  obtain ⟨other, reachable⟩ := run.reachable begins.reachable
  constructor
  · intro gated old hold new hnew order
    exact (run.allPass begins collisionless numbers gated).of_lt reachable.sound hold hnew order
  · intro gated old hold new hnew order
    exact (run.allPass begins collisionless numbers gated).of_lt reachable.sound hold hnew order

/-! ## Histories of operations -/

theorem answered_split {ops : List Operation} {earlier later : List Deed} :
    ∀ {r : Registry}, answered r ops = earlier ++ deed :: later →
      ∃ k, ∃ h : k < ops.length, earlier = answered r (ops.take k) ∧
        ∃ answer, deed = .performed ops[k] answer := by
  induction ops generalizing earlier with
  | nil => exact fun split => absurd split.symm (by simp [answered])
  | cons op rest ih =>
    intro r split
    rw [answered] at split
    cases earlier with
    | nil => exact ⟨0, Nat.succ_pos _, rfl, _, (List.cons.inj split).1.symm⟩
    | cons first earlier =>
      obtain ⟨rfl, tail⟩ := List.cons.inj split
      obtain ⟨k, more, rfl, performed⟩ := ih tail
      exact ⟨k + 1, Nat.succ_lt_succ more, rfl, performed⟩

/-- A history of operations is gated if the mode in effect is right before each registration. -/
theorem gated_answered {ops : List Operation}
    (modes : ∀ k, ∀ h : k < ops.length, ops[k].registers = true →
      (((after start (ops.take k)).config.effective scope).isTransitive &&
        ((after start (ops.take k)).config.effective scope).checks direction) = true) :
    Gated start (answered start ops) scope direction := by
  intro earlier deed later before after split run _ appends
  obtain ⟨k, more, rfl, _, rfl⟩ := answered_split split
  obtain ⟨subject, part, schema, _, performed⟩ := appends.registers
  have registers : ops[k].registers = true := by
    rw [(Deed.performed.inj performed).1]
    rfl
  have same := run_answered (ops.take k) (.start : Run start [] start)
  rw [run.unique same]
  simpa using modes k more registers

/-- Whether the canonical form of a schema given as an argument holds no real number. -/
def floatless? (schema : Json) : Option Bool :=
  match canonicalOf schema with
  | .ok candidate => some (candidate.value.parts.all fun w => w.kindName != "float")
  | .error _ => none

theorem numbersReadBack_of_floatless {schema : Json} (has : floatless? schema = some true)
    {candidate : Schema.Canonical} (accepted : canonicalOf schema = .ok candidate) :
    candidate.NumbersReadBack := by
  unfold floatless? at has
  rw [accepted] at has
  intro negative mantissa exponent mem
  have other := List.all_eq_true.1 (Option.some.inj has) _ mem
  exact absurd other (by simp [Json.kindName])

/-- Wider and wider numbers come into a scope; the first version is deleted, and for a moment
nothing is checked. -/
def widened : List Operation :=
  [.register (.str "orders") (.typed .value) (.str "\"int\""),
    .register (.str "orders") (.typed .value) (.str "\"long\""),
    .deleteVersion (.str "orders") (.typed .value) (.int 1),
    .setGlobalMode (.typed .none),
    .setGlobalMode (.typed .backwardTransitive),
    .register (.str "orders") (.typed .value) (.str "\"double\"")]

theorem spelled_widened {candidate : Schema.Canonical}
    (submitted : Submitted (answered start widened) candidate) :
    ∃ t ∈ ["\"int\"", "\"long\"", "\"double\""], canonicalOf (.str t) = .ok candidate := by
  obtain ⟨subject, part, schema, answer, mem, accepted⟩ := submitted
  have listed := mem_of_answered widened mem
  simp only [widened, List.mem_cons, Operation.register.injEq, reduceCtorEq, List.not_mem_nil,
    or_false, false_or] at listed
  rcases listed with ⟨-, -, rfl⟩ | ⟨-, -, rfl⟩ | ⟨-, -, rfl⟩
  all_goals
    refine ⟨_, ?_, accepted⟩
    simp

theorem submitted_widened {candidate : Schema.Canonical}
    (submitted : Submitted (answered start widened) candidate) :
    candidate.text ∈ ["\"int\"", "\"long\"", "\"double\""] ∧ candidate.NumbersReadBack := by
  have known : ∀ t ∈ ["\"int\"", "\"long\"", "\"double\""],
      textOf? (.str t) = some t ∧ floatless? (.str t) = some true := by decide +kernel
  obtain ⟨t, spelled, accepted⟩ := spelled_widened submitted
  obtain ⟨text, exact⟩ := known t spelled
  exact ⟨text_of_textOf? text accepted ▸ spelled, numbersReadBack_of_floatless exact accepted⟩

theorem live_versions_compatible_widened :
    Begins .backwardTransitive (fresh .backwardTransitive none) ∧
      Run (fresh .backwardTransitive none) (answered (fresh .backwardTransitive none) widened)
        (after (fresh .backwardTransitive none) widened) ∧
      Collisionless (answered (fresh .backwardTransitive none) widened) ∧
      NumbersReadBack (answered (fresh .backwardTransitive none) widened) ∧
      Gated (fresh .backwardTransitive none) (answered (fresh .backwardTransitive none) widened)
        orders .backward ∧
      ∃ old new w x,
        (after (fresh .backwardTransitive none) widened).versions.history orders = [old, new] ∧
        (after (fresh .backwardTransitive none) widened).formOf old = .ok w ∧
        (after (fresh .backwardTransitive none) widened).formOf new = .ok x ∧
        checkReaderWriter x w = .ok [] := by
  have run := run_answered widened
    (.start : Run (fresh .backwardTransitive none) [] (fresh .backwardTransitive none))
  rw [List.nil_append] at run
  have collisionless : Collisionless (answered (fresh .backwardTransitive none) widened) := by
    intro candidate candidate' submitted submitted' same
    have differ : ∀ t ∈ ["\"int\"", "\"long\"", "\"double\""],
        ∀ t' ∈ ["\"int\"", "\"long\"", "\"double\""],
          Schema.fingerprint t = Schema.fingerprint t' → t = t' := by decide +kernel
    exact differ _ (submitted_widened submitted).1 _ (submitted_widened submitted').1 same
  have numbers : NumbersReadBack (answered (fresh .backwardTransitive none) widened) :=
    fun candidate submitted => (submitted_widened submitted).2
  have gated : Gated (fresh .backwardTransitive none)
      (answered (fresh .backwardTransitive none) widened) orders .backward :=
    gated_answered (by decide +kernel)
  have live : ((after (fresh .backwardTransitive none) widened).versions.history orders).map
      (·.number) = [2, 3] := by decide +kernel
  obtain ⟨backward, -⟩ := live_versions_compatible (.memory _) run collisionless numbers orders
  refine ⟨.memory _, run, collisionless, numbers, gated, ?_⟩
  generalize after (fresh .backwardTransitive none) widened = r at live backward
  obtain ⟨old, rest, listed, first, others⟩ := List.map_eq_cons_iff.1 live
  obtain ⟨new, last, rfl, second, none⟩ := List.map_eq_cons_iff.1 others
  obtain rfl := List.map_eq_nil_iff.1 none
  obtain ⟨w, x, parsed, parsed', check⟩ := backward gated old (by simp [listed]) new
    (by simp [listed]) (by omega)
  exact ⟨old, new, w, x, listed, parsed, parsed', check⟩

end

end Registry

end AvroRegistry
