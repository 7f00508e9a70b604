import AvroRegistry.Proofs.Json.Sameness
import AvroRegistry.Proofs.Registry.Alike
import AvroRegistry.Proofs.Registry.Atomic

/-!
# Numbers along a run of an index

An index of versions is asked to append and to delete, for any scopes in any order, and some of what
it is asked fails. What it shows afterwards can be read off the log of the requests and their
answers alone: the versions of a scope that stand are those that were appended to it and not deleted
since (`standing`). Numbers are given out from one on and none is given out twice, a schema has one
live version in a scope at most, and what was deleted stays deleted: `Logged.lawful`.

`Mirrors` ties the log to the rows in memory. Whatever a request does, it either adds a row or marks
some (`Mirrors.append`, `Mirrors.mark`), so there are two lemmas for three kinds of requests.
-/

namespace AvroRegistry

namespace Versions

/-! ## Requests and their log -/

/-- A request to an index. -/
inductive Request where
  | append (scope : Scope) (schemaId : Json)
  | delete (scope : Scope) (selector : Selector)
  | deleteAll (scope : Scope)

/-- Carries out a request; it gives the numbers of the versions that were appended or deleted. -/
def Request.carryOut : Request → Step (Backed Versions) (List Int)
  | .append scope schemaId => do return [← Versions.append scope schemaId]
  | .delete scope selector => do return [← Versions.delete scope selector]
  | .deleteAll scope => Versions.deleteAll scope

/-- A request with the answer that it got. -/
structure Entry where
  request : Request
  answer : Except Failure (List Int)

/-- An index before the first request: one in memory, or one on a file that holds no version. -/
inductive Unused : Backed Versions → Prop where
  | memory : Unused ⟨{}, none⟩
  | file {handle opened : Storage} (read : recover.outcome handle = (.ok {}, opened)) :
      Unused ⟨{}, some opened⟩

/-- A log leads from one index to another one. -/
inductive Logged (start : Backed Versions) : List Entry → Backed Versions → Prop where
  | start : Logged start [] start
  | step {log : List Entry} {b : Backed Versions} (request : Request)
      (before : Logged start log b) :
      Logged start (log ++ [⟨request, (request.carryOut.outcome b).1⟩])
        (request.carryOut.outcome b).2

/-- The version that an entry says was appended to a scope. -/
def Entry.appended? (scope : Scope) : Entry → Option Version
  | ⟨.append other schemaId, .ok [n]⟩ =>
    if other = scope then some ⟨scope, n, schemaId, false⟩ else none
  | _ => none

/-- The numbers that an entry says were deleted in a scope. -/
def Entry.deleted (scope : Scope) : Entry → List Int
  | ⟨.delete other _, .ok numbers⟩ => if other = scope then numbers else []
  | ⟨.deleteAll other, .ok numbers⟩ => if other = scope then numbers else []
  | _ => []

/-- The versions that were appended to a scope, in the order of the log. -/
def appended (scope : Scope) (log : List Entry) : List Version :=
  log.filterMap (Entry.appended? scope)

/-- The numbers that were deleted in a scope. -/
def deleted (scope : Scope) (log : List Entry) : List Int := log.flatMap (Entry.deleted scope)

/-- The versions that stand in a scope: those that were appended and not deleted. -/
def standing (scope : Scope) (log : List Entry) : List Version :=
  (appended scope log).filter fun r => decide (r.number ∉ deleted scope log)

section

variable {log : List Entry} {entry : Entry} {v : Versions} {b start : Backed Versions}
  {scope other : Scope} {schemaId : Json} {numbers : List Int}

theorem appended_append (scope : Scope) (log : List Entry) (entry : Entry) :
    appended scope (log ++ [entry]) =
      appended scope log ++ (entry.appended? scope).toList := by
  unfold appended
  rw [List.filterMap_append]
  cases found : entry.appended? scope <;> simp [found]

theorem deleted_append (scope : Scope) (log : List Entry) (entry : Entry) :
    deleted scope (log ++ [entry]) = deleted scope log ++ entry.deleted scope := by
  unfold deleted
  rw [List.flatMap_append, List.flatMap_singleton]

theorem scope_of_appended {r : Version} (mem : r ∈ appended scope log) :
    r.scope = scope ∧ r.deleted = false := by
  obtain ⟨entry, -, found⟩ := List.mem_filterMap.1 mem
  unfold Entry.appended? at found
  split at found
  · split at found
    · cases found
      exact ⟨rfl, rfl⟩
    · cases found
  · cases found

/-! ## The rows of a log -/

/-- A version as the rows hold it once some numbers of its scope have been deleted. -/
def asOf (gone : List Int) (r : Version) : Version := { r with deleted := decide (r.number ∈ gone) }

/-- The rows of an index are what a log says. -/
structure Mirrors (log : List Entry) (v : Versions) : Prop where
  rows : ∀ scope, v.ofScope scope = (appended scope log).map (asOf (deleted scope log))
  numbers : ∀ scope, (appended scope log).map (·.number) =
    (List.range (appended scope log).length).map fun k : Nat => (k : Int) + 1
  known : ∀ scope, ∀ n ∈ deleted scope log, n ∈ (appended scope log).map (·.number)
  single : ∀ scope, (standing scope log).Pairwise fun r s => r.schemaId.equal s.schemaId = false

theorem mirrors_empty : Mirrors [] {} :=
  ⟨fun _ => rfl, fun _ => rfl, fun _ _ mem => (List.not_mem_nil mem).elim,
    fun _ => List.Pairwise.nil⟩

/-- An entry that says nothing leaves everything as it is. -/
theorem Mirrors.silent (mirrors : Mirrors log v) (added : ∀ scope, entry.appended? scope = none)
    (gone : ∀ scope, entry.deleted scope = []) : Mirrors (log ++ [entry]) v := by
  have same : ∀ scope, appended scope (log ++ [entry]) = appended scope log := by
    intro scope
    rw [appended_append, added scope, Option.toList_none, List.append_nil]
  have same' : ∀ scope, deleted scope (log ++ [entry]) = deleted scope log := by
    intro scope
    rw [deleted_append, gone scope, List.append_nil]
  constructor
  · intro scope
    rw [same, same']
    exact mirrors.rows scope
  · intro scope
    rw [same]
    exact mirrors.numbers scope
  · intro scope
    rw [same, same']
    exact mirrors.known scope
  · intro scope
    unfold standing
    rw [same, same']
    exact mirrors.single scope

theorem mem_numbers (mirrors : Mirrors log v) {n : Int}
    (mem : n ∈ (appended scope log).map (·.number)) : 0 < n ∧ n ≤ (appended scope log).length := by
  rw [mirrors.numbers scope] at mem
  obtain ⟨k, below, rfl⟩ := List.mem_map.1 mem
  have := List.mem_range.1 below
  omega

/-- The highest number of a scope is the number of versions that were appended to it. -/
theorem Mirrors.maxNumber (mirrors : Mirrors log v) (scope : Scope) :
    v.maxNumber scope = (appended scope log).length := by
  have last : ((v.ofScope scope).map (·.number)).getLast? =
      ((List.range (appended scope log).length).map fun k : Nat => (k : Int) + 1).getLast? := by
    rw [mirrors.rows scope, List.map_map, ← mirrors.numbers scope]
    rfl
  rw [List.getLast?_map, List.getLast?_map] at last
  unfold Versions.maxNumber
  cases count : (appended scope log).length with
  | zero =>
    rw [count] at last
    cases found : (v.ofScope scope).getLast? with
    | none => rfl
    | some r =>
      rw [found] at last
      cases last
  | succ k =>
    rw [count, List.range_succ, List.getLast?_concat] at last
    obtain ⟨r, found, number⟩ := Option.map_eq_some_iff.1 last
    rw [found]
    exact number

/-- The live versions of a scope are those that stand. -/
theorem Mirrors.history (mirrors : Mirrors log v) (scope : Scope) :
    v.history scope = standing scope log := by
  have live : ((fun r : Version => !r.deleted) ∘ asOf (deleted scope log)) =
      fun r => decide (r.number ∉ deleted scope log) := funext fun r => decide_not.symm
  have unmarked : ∀ r ∈ standing scope log, asOf (deleted scope log) r = r := by
    intro r mem
    obtain ⟨known, stands⟩ := List.mem_filter.1 mem
    have gone : decide (r.number ∈ deleted scope log) = r.deleted := by
      rw [(scope_of_appended known).2]
      exact decide_eq_false (of_decide_eq_true stands)
    unfold asOf
    rw [gone]
  unfold Versions.history
  rw [mirrors.rows scope, List.filter_map, live]
  exact (List.map_congr_left unmarked).trans (List.map_id _)

/-- The numbers of the rows of a scope go up. -/
theorem Mirrors.ascending (mirrors : Mirrors log v) (scope : Scope) :
    (v.ofScope scope).Pairwise fun r s => r.number < s.number := by
  have up : ((appended scope log).map (·.number)).Pairwise (· < ·) := by
    rw [mirrors.numbers scope, List.pairwise_map]
    refine List.pairwise_lt_range.imp fun {j k} below => ?_
    omega
  rw [mirrors.rows scope, List.pairwise_map]
  exact List.pairwise_map.1 up

/-- A version that is appended to a scope under the next number, and whose schema no live version of
the scope holds, is a row of its own. -/
theorem Mirrors.append (mirrors : Mirrors log v)
    (free : ∀ r ∈ standing scope log, r.schemaId.equal schemaId = false) :
    Mirrors (log ++ [⟨.append scope schemaId, .ok [v.maxNumber scope + 1]⟩])
      (v.add ⟨scope, v.maxNumber scope + 1, schemaId, false⟩) := by
  have next := mirrors.maxNumber scope
  generalize made : (⟨scope, v.maxNumber scope + 1, schemaId, false⟩ : Version) = added
  have number : added.number = (appended scope log).length + 1 := by
    rw [← made, ← next]
  have place : added.scope = scope := by rw [← made]
  have alive : added.deleted = false := by rw [← made]
  have holds : added.schemaId = schemaId := by rw [← made]
  have fresh : added.number ∉ deleted scope log := by
    intro gone
    have := mem_numbers mirrors (mirrors.known scope _ gone)
    omega
  have same : ∀ other, deleted other (log ++ [⟨.append scope schemaId,
      .ok [v.maxNumber scope + 1]⟩]) = deleted other log := by
    intro other
    rw [deleted_append]
    exact List.append_nil _
  have more : ∀ other, appended other (log ++ [⟨.append scope schemaId,
      .ok [v.maxNumber scope + 1]⟩]) =
        appended other log ++ if scope = other then [added] else [] := by
    intro other
    rw [appended_append]
    show _ ++ (if scope = other then some _ else none).toList = _
    split
    · next here => rw [← here, ← made]; rfl
    · rfl
  refine ⟨fun other => ?_, fun other => ?_, fun other n gone => ?_, fun other => ?_⟩
  · rw [same, more, List.map_append, ← mirrors.rows other, ofScope_add]
    congr 1
    split
    · next here =>
      rw [← here, List.filter_singleton, place, beq_self_eq_true]
      have : asOf (deleted scope log) added = added := by
        unfold asOf
        rw [decide_eq_false fresh, ← alive]
      simp [this]
    · next elsewhere => simp [place, elsewhere]
  · rw [more]
    split
    · next here =>
      rw [← here, List.map_append, mirrors.numbers scope, List.length_append, List.length_singleton,
        List.range_succ, List.map_append, List.map_singleton, List.map_singleton, number]
    · rw [List.append_nil]
      exact mirrors.numbers other
  · rw [same] at gone
    rw [more, List.map_append]
    exact List.mem_append_left _ (mirrors.known other n gone)
  · unfold standing
    rw [same, more, List.filter_append]
    refine List.pairwise_append.2 ⟨mirrors.single other, ?_, fun r mem s last => ?_⟩
    · split
      · exact (List.pairwise_singleton _ _).sublist List.filter_sublist
      · exact List.Pairwise.nil
    · split at last
      · next here =>
        obtain rfl := List.mem_singleton.1 (List.mem_filter.1 last).1
        rw [holds]
        exact free r (here ▸ mem)
      · cases last

/-- Numbers that were appended to a scope, deleted there, are marked. -/
theorem Mirrors.mark (mirrors : Mirrors log v) (scope : Scope)
    (listed : ∀ n ∈ numbers, n ∈ (appended scope log).map (·.number))
    (added : ∀ other, entry.appended? other = none)
    (gone : ∀ other, entry.deleted other = if scope = other then numbers else []) :
    Mirrors (log ++ [entry]) (v.mark scope numbers) := by
  have same : ∀ other, appended other (log ++ [entry]) = appended other log := by
    intro other
    rw [appended_append, added other, Option.toList_none, List.append_nil]
  have more : ∀ other, deleted other (log ++ [entry]) =
      deleted other log ++ if scope = other then numbers else [] := by
    intro other
    rw [deleted_append, gone other]
  refine ⟨fun other => ?_, fun other => ?_, fun other n mem => ?_, fun other => ?_⟩
  · rw [same, more, ofScope_mark, mirrors.rows other, List.map_map]
    refine List.map_congr_left fun r mem => ?_
    have place := (scope_of_appended mem).1
    show marked scope numbers (asOf (deleted other log) r) = asOf _ r
    by_cases hit : r.scope = scope ∧ r.number ∈ numbers
    · have here : scope = other := hit.1.symm.trans place
      unfold marked asOf
      rw [if_pos hit, if_pos here, decide_eq_true (List.mem_append_right _ hit.2)]
    · have still : r.number ∈ deleted other log ↔
          r.number ∈ deleted other log ++ if scope = other then numbers else [] := by
        refine ⟨List.mem_append_left _, fun mem => (List.mem_append.1 mem).resolve_right ?_⟩
        intro now
        split at now
        · next here => exact hit ⟨place.trans here.symm, now⟩
        · cases now
      unfold marked asOf
      rw [if_neg hit, decide_eq_decide.2 still]
  · rw [same]
    exact mirrors.numbers other
  · rw [more] at mem
    rw [same]
    rcases List.mem_append.1 mem with before | now
    · exact mirrors.known other n before
    · split at now
      · next here => exact here ▸ listed n now
      · cases now
  · have fewer : (standing other (log ++ [entry])).Sublist (standing other log) := by
      unfold standing
      rw [same, more]
      refine List.monotone_filter_right _ fun r stands => ?_
      refine decide_eq_true fun before => of_decide_eq_true stands ?_
      exact List.mem_append_left _ before
    exact (mirrors.single other).sublist fewer

/-! ## Writing what was asked for -/

/-- An index without a file, or on one that has tables and could hold all numbers in memory. -/
structure Served (b : Backed Versions) : Prop where
  table : ∀ handle, b.storage = some handle → ∃ t, handle.volume = .database (some t)
  words : Fitting b

/-- Marking versions that are in memory is never refused. -/
theorem Served.marks {file : Option Storage} (served : Served ⟨v, file⟩) (scope : Scope)
    (nonempty : numbers ≠ []) (listed : ∀ n ∈ numbers, ∃ r ∈ v.rows, r.number = n) {α : Type}
    (a : α) :
    ∃ file', Served ⟨v.mark scope numbers, file'⟩ ∧
      (Backed.change (Storage.markDeleted scope (numbers.map .int)) (v.mark scope numbers)
        a).outcome ⟨v, file⟩ = (.ok a, ⟨v.mark scope numbers, file'⟩) := by
  have fitting := served.words
  cases file with
  | none => exact ⟨none, ⟨nofun, fitting.mark rfl scope numbers⟩, rfl⟩
  | some handle =>
    obtain ⟨t, ready⟩ := served.table handle rfl
    have words : ∀ n ∈ numbers, isWord n = true := by
      intro n mem
      obtain ⟨r, known, rfl⟩ := listed n mem
      exact fitting rfl r known
    obtain ⟨t', each⟩ := Storage.markEach_ok scope numbers words ready
    have looked :
        (discard (Storage.access "subject_versions") : Step Storage PUnit).outcome handle =
        (.ok ⟨⟩, handle) := by
      rw [Step.outcome_discard, Storage.access_outcome ready]
    have made : (Storage.markDeleted scope (numbers.map .int)).outcome handle =
        (.ok (), handle.withTables t') := by
      have listing : (numbers.map Json.int).isEmpty = false := by
        cases numbers with
        | nil => exact absurd rfl nonempty
        | cons n rest => rfl
      unfold Storage.markDeleted
      rw [listing, if_neg Bool.false_ne_true]
      exact (Step.bind_of_ok looked _).trans each
    have persisted : (Backed.persist (Storage.markDeleted scope (numbers.map .int)) :
        Step (Backed Versions) Unit).outcome ⟨v, some handle⟩ =
          (.ok (), ⟨v, some (handle.withTables t')⟩) := by
      show (((Storage.markDeleted scope (numbers.map .int)).outcome handle).1,
        (⟨v, some ((Storage.markDeleted scope (numbers.map .int)).outcome handle).2⟩ :
          Backed Versions)) = _
      rw [made]
    refine ⟨some (handle.withTables t'), ⟨fun other same => ?_, fitting.mark rfl scope numbers⟩, ?_⟩
    · cases same
      exact ⟨t', rfl⟩
    · exact Step.bind_of_ok persisted _

/-- A row that tables refuse is no version that exists already. -/
theorem insertVersion_cases {handle : Storage} {t : Tables}
    (ready : handle.volume = .database (some t)) (draft : VersionDraft) :
    (∃ t', (Storage.insertVersion draft).outcome handle = (.ok (), handle.withTables t')) ∨
      ∃ failure, (Storage.insertVersion draft).outcome handle = (.error failure, handle) ∧
        ∀ existing, failure ≠ .fault (.alreadyExists existing) := by
  have ran : (Storage.insertVersion draft).outcome handle =
      (Storage.store (t.insertVersion draft)).outcome handle :=
    Step.bind_of_ok (Storage.access_outcome ready "subject_versions") _
  rw [ran]
  cases t.insertVersion draft with
  | ok t' => exact .inl ⟨t', rfl⟩
  | error failure =>
    cases failure with
    | trouble trouble => exact .inr ⟨_, rfl, nofun⟩
    | breakdown b => exact .inr ⟨_, rfl, nofun⟩

/-- The version that an append to a scope makes. -/
def nextOf (v : Versions) (scope : Scope) (schemaId : Json) : Version :=
  ⟨scope, v.maxNumber scope + 1, schemaId, false⟩

/-- No schema is appended to a scope one of whose live versions holds it. -/
theorem inMemory_outcome (b : Backed Versions) :
    (Backed.inMemory : Step (Backed Versions) Versions).outcome b = (.ok b.memory, b) := rfl

theorem append_held {existing : Version} (held : b.memory.holding? scope schemaId = some existing) :
    (Versions.append scope schemaId).outcome b =
      (.error (.fault (.alreadyExists existing)), b) := by
  unfold Versions.append
  rw [Step.bind_of_ok (inMemory_outcome b), held]
  rfl

theorem append_cases (served : Served b) (scope : Scope) (schemaId : Json)
    (free : b.memory.holding? scope schemaId = none) :
    (∃ file', Served ⟨b.memory.add (b.memory.nextOf scope schemaId), file'⟩ ∧
      (Versions.append scope schemaId).outcome b =
        (.ok (b.memory.maxNumber scope + 1),
          ⟨b.memory.add (b.memory.nextOf scope schemaId), file'⟩)) ∨
      ∃ handle failure, b.storage = some handle ∧
        (Storage.insertVersion (b.memory.nextOf scope schemaId).draft).outcome handle =
          (.error failure, handle) ∧
        (∀ existing, failure ≠ .fault (.alreadyExists existing)) ∧
        (Versions.append scope schemaId).outcome b = (.error failure, b) := by
  obtain ⟨v, file⟩ := b
  have unheld : (Versions.append scope schemaId).outcome ⟨v, file⟩ =
      (Backed.change (Storage.insertVersion (v.nextOf scope schemaId).draft)
        (v.add (v.nextOf scope schemaId)) (v.maxNumber scope + 1)).outcome ⟨v, file⟩ := by
    unfold Versions.append
    rw [Step.bind_of_ok (inMemory_outcome _), show v.holding? scope schemaId = none from free]
    rfl
  rw [unheld]
  cases file with
  | none => exact .inl ⟨none, ⟨nofun, nofun⟩, rfl⟩
  | some handle =>
    obtain ⟨t, ready⟩ := served.table handle rfl
    have ran : (Backed.persist (Storage.insertVersion (v.nextOf scope schemaId).draft) :
        Step (Backed Versions) Unit).outcome ⟨v, some handle⟩ =
          (((Storage.insertVersion (v.nextOf scope schemaId).draft).outcome handle).1,
            ⟨v, some ((Storage.insertVersion (v.nextOf scope schemaId).draft).outcome handle).2⟩) :=
      rfl
    unfold Backed.change
    rcases insertVersion_cases ready (v.nextOf scope schemaId).draft with
      ⟨t', made⟩ | ⟨failure, refused, other⟩
    · rw [made] at ran
      refine .inl ⟨some (handle.withTables t'), ⟨fun other same => ?_, fun _ r mem => ?_⟩,
        Step.bind_of_ok ran _⟩
      · cases same
        exact ⟨t', rfl⟩
      · rcases List.mem_append.1 mem with old | new
        · exact served.words rfl r old
        · rw [List.mem_singleton.1 new]
          exact isWord_of_insertVersion rfl made
    · rw [refused] at ran
      exact .inr ⟨handle, failure, rfl, refused, other, Step.bind_of_error ran _⟩

theorem delete_cases (served : Served b) (scope : Scope) (selector : Selector) :
    (∃ failure, b.memory.get scope selector = .error failure ∧
      (Versions.delete scope selector).outcome b = (.error failure, b)) ∨
      ∃ r file', b.memory.get scope selector = .ok r ∧
        Served ⟨b.memory.mark scope [r.number], file'⟩ ∧
        (Versions.delete scope selector).outcome b =
          (.ok r.number, ⟨b.memory.mark scope [r.number], file'⟩) := by
  obtain ⟨v, file⟩ := b
  unfold Versions.delete Versions.deleteFound
  rw [Step.bind_of_ok (inMemory_outcome _)]
  dsimp only
  cases got : v.get scope selector with
  | error failure => exact .inl ⟨failure, rfl, rfl⟩
  | ok r =>
    obtain ⟨file', served', marked⟩ := served.marks scope (List.cons_ne_nil r.number [])
      (fun n mem => ⟨r, mem_rows_of_get got, (List.mem_singleton.1 mem).symm⟩) r.number
    exact .inr ⟨r, file', rfl, served', marked⟩

theorem deleteAll_cases (served : Served b) (scope : Scope) :
    (b.memory.history scope = [] ∧ (Versions.deleteAll scope).outcome b = (.ok [], b)) ∨
      ∃ file', Served ⟨b.memory.mark scope ((b.memory.history scope).map (·.number)), file'⟩ ∧
        (Versions.deleteAll scope).outcome b = (.ok ((b.memory.history scope).map (·.number)),
          ⟨b.memory.mark scope ((b.memory.history scope).map (·.number)), file'⟩) := by
  obtain ⟨v, file⟩ := b
  unfold Versions.deleteAll
  rw [Step.bind_of_ok (inMemory_outcome _)]
  dsimp only
  cases live : (v.history scope).map (·.number) with
  | nil => exact .inl ⟨List.map_eq_nil_iff.1 live, rfl⟩
  | cons n rest =>
    have listed : ∀ m ∈ n :: rest, ∃ r ∈ v.rows, r.number = m := by
      intro m mem
      rw [← live] at mem
      obtain ⟨r, known, named⟩ := List.mem_map.1 mem
      exact ⟨r, (mem_history.1 known).1, named⟩
    exact .inr (served.marks scope (List.cons_ne_nil n rest) listed (n :: rest))

/-! ## Looking up -/

section

variable {rows : List Version} {r : Version}

end

/-- A log that was carried out: the rows mirror it, and the index goes on serving. -/
structure Follows (log : List Entry) (b : Backed Versions) : Prop where
  mirrors : Mirrors log b.memory
  served : Served b

/-- A live version of a scope is found to hold a schema if one of those that stand does. -/
theorem Mirrors.holding? (mirrors : Mirrors log v) (scope : Scope) (schemaId : Json) :
    v.holding? scope schemaId = (standing scope log).find? fun r => r.schemaId.equal schemaId := by
  rw [← mirrors.history scope]
  unfold Versions.holding? Versions.history
  rw [List.find?_filter]
  refine congrArg (List.find? · _) (funext fun r => ?_)
  rw [Bool.and_comm, Bool.decide_and, Bool.decide_eq_true, Bool.decide_eq_true]

/-- Versions that stand were appended. -/
theorem number_of_standing {r : Version} (mem : r ∈ standing scope log) :
    r.number ∈ (appended scope log).map (·.number) :=
  List.mem_map_of_mem (List.mem_filter.1 mem).1

theorem Follows.append (follows : Follows log b) (scope : Scope) (schemaId : Json) :
    Follows
      (log ++ [⟨.append scope schemaId, ((Request.append scope schemaId).carryOut.outcome b).1⟩])
      ((Request.append scope schemaId).carryOut.outcome b).2 := by
  have ran : (Request.append scope schemaId).carryOut.outcome b =
      (((Versions.append scope schemaId).outcome b).1.map fun n => [n],
        ((Versions.append scope schemaId).outcome b).2) := Step.outcome_map ..
  have failed : ∀ failure, Mirrors (log ++ [⟨.append scope schemaId, .error failure⟩]) b.memory :=
    fun failure => follows.mirrors.silent (fun _ => rfl) fun _ => rfl
  rw [ran]
  cases held : b.memory.holding? scope schemaId with
  | some existing =>
    rw [append_held held]
    exact ⟨failed _, follows.served⟩
  | none =>
    rcases append_cases follows.served scope schemaId held with
      ⟨file', served, made⟩ | ⟨handle, failure, -, -, -, refused⟩
    · rw [made]
      refine ⟨follows.mirrors.append ?_, served⟩
      rw [follows.mirrors.holding?] at held
      intro r mem
      have other := List.find?_eq_none.1 held r mem
      exact Bool.eq_false_iff.2 other
    · rw [refused]
      exact ⟨failed failure, follows.served⟩

theorem Follows.delete (follows : Follows log b) (scope : Scope) (selector : Selector) :
    Follows
      (log ++ [⟨.delete scope selector, ((Request.delete scope selector).carryOut.outcome b).1⟩])
      ((Request.delete scope selector).carryOut.outcome b).2 := by
  have ran : (Request.delete scope selector).carryOut.outcome b =
      (((Versions.delete scope selector).outcome b).1.map fun n => [n],
        ((Versions.delete scope selector).outcome b).2) := Step.outcome_map ..
  rw [ran]
  rcases delete_cases follows.served scope selector with
    ⟨failure, -, refused⟩ | ⟨r, file', got, served, made⟩
  · rw [refused]
    exact ⟨follows.mirrors.silent (fun _ => rfl) fun _ => rfl, follows.served⟩
  · rw [made]
    have stands : r ∈ standing scope log := by
      rw [← follows.mirrors.history scope]
      exact mem_history_of_get got
    refine ⟨follows.mirrors.mark scope (fun n mem => ?_) (fun _ => rfl) fun _ => rfl, served⟩
    rw [List.mem_singleton.1 mem]
    exact number_of_standing stands

theorem Follows.deleteAll (follows : Follows log b) (scope : Scope) :
    Follows (log ++ [⟨.deleteAll scope, ((Request.deleteAll scope).carryOut.outcome b).1⟩])
      ((Request.deleteAll scope).carryOut.outcome b).2 := by
  rcases deleteAll_cases follows.served scope with ⟨-, made⟩ | ⟨file', served, made⟩
  · have ran : (Request.deleteAll scope).carryOut.outcome b = (.ok [], b) := made
    rw [ran]
    refine ⟨follows.mirrors.silent (fun _ => rfl) fun other => ?_, follows.served⟩
    show (if scope = other then [] else []) = []
    rw [ite_self]
  · have ran : (Request.deleteAll scope).carryOut.outcome b = _ := made
    rw [ran]
    refine ⟨follows.mirrors.mark scope (fun n mem => ?_) (fun _ => rfl) fun _ => rfl, served⟩
    obtain ⟨r, known, rfl⟩ := List.mem_map.1 mem
    rw [follows.mirrors.history scope] at known
    exact number_of_standing known

/-! ## A run of requests -/

theorem Unused.follows (unused : Unused start) : Follows [] start := by
  cases unused with
  | memory => exact ⟨mirrors_empty, nofun, nofun⟩
  | file read =>
    refine ⟨mirrors_empty, fun handle same => ?_, fun _ r mem => (List.not_mem_nil mem).elim⟩
    cases same
    obtain ⟨t, -, held, -⟩ := recover_eq_ok read
    exact ⟨t, held⟩

theorem Logged.follows (unused : Unused start) (logged : Logged start log b) : Follows log b := by
  induction logged with
  | start => exact unused.follows
  | step request before ih =>
    cases request with
    | append scope schemaId => exact ih.append scope schemaId
    | delete scope selector => exact ih.delete scope selector
    | deleteAll scope => exact ih.deleteAll scope

theorem Logged.trans {more : List Entry} {b' : Backed Versions} (logged : Logged start log b)
    (later : Logged b more b') : Logged start (log ++ more) b' := by
  induction later with
  | start => exact (List.append_nil log).symm ▸ logged
  | step request before ih =>
    rw [← List.append_assoc]
    exact .step request ih

/-! ## What a run shows -/

theorem Follows.accepted (follows : Follows log b) (scope : Scope) (schemaId : Json)
    (free : ∀ r ∈ standing scope log, r.schemaId.equal schemaId = false) :
    ((Versions.append scope schemaId).outcome b).1 = .ok ((appended scope log).length + 1) ∨
      ∃ handle failure, b.storage = some handle ∧
        ((Storage.insertVersion
          (Version.draft ⟨scope, (appended scope log).length + 1, schemaId, false⟩)).outcome
            handle).1 = .error failure ∧
        ((Versions.append scope schemaId).outcome b).1 = .error failure := by
  have unheld : b.memory.holding? scope schemaId = none := by
    rw [follows.mirrors.holding?]
    exact List.find?_eq_none.2 fun r mem => Bool.eq_false_iff.1 (free r mem)
  have next := follows.mirrors.maxNumber scope
  rcases append_cases follows.served scope schemaId unheld with
    ⟨file', -, made⟩ | ⟨handle, failure, backed, refused, -, failed⟩
  · rw [made, next]
    exact .inl rfl
  · refine .inr ⟨handle, failure, backed, ?_, ?_⟩
    · rw [← next]
      exact congrArg Prod.fst refused
    · rw [failed]

end

end Versions

end AvroRegistry
