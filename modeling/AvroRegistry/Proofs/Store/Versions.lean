import AvroRegistry.Proofs.Scopes
import AvroRegistry.Proofs.Store.Schemas
import AvroRegistry.Store.Versions
import Mathlib.Data.List.Pairwise
import Mathlib.Data.String.Basic

/-!
# Sound indices of versions

What is true of every index of versions that a registry fills: a version points at a stored schema,
the numbers of a scope are positive and go up, and no two live versions of a scope point at one
schema. Appending and marking keep this.

A file lists its rows by scope and number, in whatever order they were written. An index read back
from them is sound again and has the same versions in each scope, in the same order; only the order
between scopes may be another one.
-/

namespace AvroRegistry.Versions

/-- Two versions are not live versions of one scope that hold one schema. -/
def Apart (a b : Version) : Prop :=
  a.scope = b.scope → a.deleted = false → b.deleted = false → a.schemaId ≠ b.schemaId

theorem Apart.symm {a b : Version} (apart : Apart a b) : Apart b a :=
  fun same live live' holds => apart same.symm live' live holds.symm

instance : Std.Symm Apart := ⟨fun _ _ apart => apart.symm⟩

/-- An index of versions as a registry fills it, over a store of schemas. -/
structure Sound (schemas : Schemas) (v : Versions) : Prop where
  points : ∀ r ∈ v.rows, ∃ e ∈ schemas.entries, r.schemaId = .int e.id
  positive : ∀ r ∈ v.rows, 0 < r.number
  ascending : v.rows.Pairwise fun a b => a.scope = b.scope → a.number < b.number
  single : v.rows.Pairwise Apart

theorem sound_empty (schemas : Schemas) : Sound schemas {} :=
  ⟨by simp, by simp, List.Pairwise.nil, List.Pairwise.nil⟩

variable {schemas : Schemas} {v : Versions} {scope : Scope}

/-- An index stays sound when schemas are added to the store. -/
theorem Sound.mono (sound : Sound schemas v) {more : Schemas}
    (sub : schemas.entries ⊆ more.entries) : Sound more v where
  points r mem := by
    obtain ⟨e, stored, points⟩ := sound.points r mem
    exact ⟨e, sub stored, points⟩
  positive := sound.positive
  ascending := sound.ascending
  single := sound.single

/-! ## Numbers -/

theorem mem_ofScope {r : Version} : r ∈ v.ofScope scope ↔ r ∈ v.rows ∧ r.scope = scope := by
  unfold ofScope
  rw [List.mem_filter, beq_iff_eq]

theorem mem_history {r : Version} :
    r ∈ v.history scope ↔ r ∈ v.rows ∧ r.scope = scope ∧ r.deleted = false := by
  unfold history
  rw [List.mem_filter, mem_ofScope, Bool.not_eq_true', and_assoc]

/-- A version that a selector means is a live version of the scope. -/
theorem mem_history_of_get {selector : Selector} {r : Version}
    (got : v.get scope selector = .ok r) : r ∈ v.history scope := by
  unfold get at got
  cases found : v.select? scope selector with
  | none =>
    rw [found] at got
    cases got
  | some other =>
    rw [found] at got
    cases got
    cases selector with
    | latest => exact List.mem_of_getLast? found
    | number n =>
      obtain ⟨named, live⟩ := Option.filter_eq_some_iff.1 found
      exact List.mem_filter.2 ⟨List.mem_of_find?_eq_some named, live⟩

theorem mem_rows_of_get {selector : Selector} {r : Version}
    (got : v.get scope selector = .ok r) : r ∈ v.rows :=
  (mem_history.1 (mem_history_of_get got)).1

/-- The highest number of a scope is below any positive number above all numbers of the scope. -/
theorem maxNumber_lt {n : Int} (positive : 0 < n)
    (above : ∀ r ∈ v.rows, r.scope = scope → r.number < n) : v.maxNumber scope < n := by
  unfold maxNumber
  cases last : (v.ofScope scope).getLast? with
  | none => exact positive
  | some r =>
    obtain ⟨mem, same⟩ := mem_ofScope.1 (List.mem_of_getLast? last)
    exact above r mem same

/-- The versions of a scope have their numbers in order. -/
theorem Sound.ofScope_ascending (sound : Sound schemas v) (scope : Scope) :
    (v.ofScope scope).Pairwise fun a b => a.number < b.number := by
  refine (sound.ascending.sublist List.filter_sublist).imp_of_mem fun ha hb lt => ?_
  exact lt ((mem_ofScope.1 ha).2.trans (mem_ofScope.1 hb).2.symm)

/-- So have its live versions. -/
theorem Sound.history_ascending (sound : Sound schemas v) (scope : Scope) :
    (v.history scope).Pairwise fun a b => a.number < b.number :=
  (sound.ofScope_ascending scope).sublist List.filter_sublist

/-- No version of a scope has a number above the highest one. -/
theorem Sound.le_maxNumber (sound : Sound schemas v) {r : Version} (mem : r ∈ v.rows) :
    r.number ≤ v.maxNumber r.scope := by
  have listed : r ∈ v.ofScope r.scope := mem_ofScope.2 ⟨mem, rfl⟩
  have ascending := (sound.ofScope_ascending r.scope).imp Int.le_of_lt
  unfold maxNumber
  obtain ⟨front, last, split⟩ := List.eq_nil_or_concat (v.ofScope r.scope) |>.resolve_left
    (List.ne_nil_of_mem listed)
  rw [split, List.concat_eq_append] at listed ascending ⊢
  rw [List.getLast?_concat]
  rcases List.mem_append.1 listed with before | here
  · exact (List.pairwise_append.1 ascending).2.2 r before last List.mem_cons_self
  · rw [List.mem_singleton.1 here]

theorem Sound.maxNumber_nonneg (sound : Sound schemas v) (scope : Scope) :
    0 ≤ v.maxNumber scope := by
  unfold maxNumber
  cases last : (v.ofScope scope).getLast? with
  | none => exact Int.le_refl 0
  | some r =>
    have mem := (mem_ofScope.1 (List.mem_of_getLast? last)).1
    exact Int.le_of_lt (sound.positive r mem)

/-- The highest number of a scope is that of a version, if the scope has any. -/
theorem maxNumber_cases (v : Versions) (scope : Scope) :
    (v.maxNumber scope = 0 ∧ ∀ r ∈ v.rows, r.scope ≠ scope) ∨
      ∃ r ∈ v.rows, r.scope = scope ∧ r.number = v.maxNumber scope := by
  unfold maxNumber
  cases last : (v.ofScope scope).getLast? with
  | none =>
    rw [List.getLast?_eq_none_iff] at last
    refine .inl ⟨rfl, fun r mem same => ?_⟩
    exact List.not_mem_nil (last ▸ mem_ofScope.2 ⟨mem, same⟩)
  | some r =>
    obtain ⟨mem, same⟩ := mem_ofScope.1 (List.mem_of_getLast? last)
    exact .inr ⟨r, mem, same, rfl⟩

/-! ## Versions that hold a schema -/

theorem equal_int (n m : Int) : (Json.int n).equal (.int m) = (n == m) := rfl

/-- Where no live version of a scope is found to hold a schema, none does. -/
theorem holding?_none {id : Int} (none : v.holding? scope (.int id) = none) :
    ∀ r ∈ v.rows, r.scope = scope → r.deleted = false → r.schemaId ≠ .int id := by
  intro r mem same live points
  have other := List.find?_eq_none.1 none r (mem_ofScope.2 ⟨mem, same⟩)
  rw [points, equal_int, live, beq_self_eq_true] at other
  exact other rfl

/-- A version that is found to hold a schema is a live version of the scope that does. -/
theorem holding?_some {id : Json} {r : Version} (found : v.holding? scope id = some r) :
    r ∈ v.ofScope scope ∧ r.schemaId.equal id = true ∧ r.deleted = false := by
  unfold holding? at found
  have holds := List.find?_some found
  rw [Bool.and_eq_true, Bool.not_eq_true'] at holds
  exact ⟨List.mem_of_find?_eq_some found, holds⟩

/-- A live version is found under the schema that it holds: no other one of its scope holds it. -/
theorem Sound.holding?_mem (sound : Sound schemas v) {r : Version} (live : r ∈ v.history scope)
    {id : Int} (points : r.schemaId = .int id) : v.holding? scope (.int id) = some r := by
  obtain ⟨mem, same, standing⟩ := mem_history.1 live
  cases found : v.holding? scope (.int id) with
  | none => exact absurd points (holding?_none found r mem same standing)
  | some other =>
    obtain ⟨listed, holds, standing'⟩ := holding?_some found
    obtain ⟨mem', same'⟩ := mem_ofScope.1 listed
    obtain ⟨e, -, points'⟩ := sound.points other mem'
    rw [points', equal_int, beq_iff_eq] at holds
    by_contra differ
    have apart : other ≠ r := fun one => differ (congrArg some one)
    refine sound.single.forall mem' mem apart (same'.trans same.symm) standing' standing ?_
    rw [points', points, holds]

/-! ## Changing -/

/-- The version that a scope gets next. -/
def next (v : Versions) (scope : Scope) (id : Int) : Version :=
  ⟨scope, v.maxNumber scope + 1, .int id, false⟩

/-- An index stays sound when a version is appended whose schema no live version of the scope
holds. -/
theorem Sound.add (sound : Sound schemas v) {e : StoredSchema} (stored : e ∈ schemas.entries)
    (none : v.holding? scope (.int e.id) = none) : Sound schemas (v.add (v.next scope e.id)) where
  points r mem := by
    rcases List.mem_append.1 mem with old | new
    · exact sound.points r old
    · rw [List.mem_singleton.1 new]
      exact ⟨e, stored, rfl⟩
  positive r mem := by
    rcases List.mem_append.1 mem with old | new
    · exact sound.positive r old
    · rw [List.mem_singleton.1 new]
      have := sound.maxNumber_nonneg scope
      show 0 < v.maxNumber scope + 1
      omega
  ascending := by
    refine List.pairwise_append.2 ⟨sound.ascending, List.pairwise_singleton _ _, ?_⟩
    intro a ha b hb same
    rw [List.mem_singleton.1 hb] at same ⊢
    have below := sound.le_maxNumber ha
    rw [show a.scope = scope from same] at below
    show a.number < v.maxNumber scope + 1
    omega
  single := by
    refine List.pairwise_append.2 ⟨sound.single, List.pairwise_singleton _ _, ?_⟩
    intro a ha b hb same live _
    rw [List.mem_singleton.1 hb] at same ⊢
    exact holding?_none none a ha same live

/-- A version once it has been marked. -/
def marked (scope : Scope) (numbers : List Int) (r : Version) : Version :=
  if r.scope = scope ∧ r.number ∈ numbers then { r with deleted := true } else r

theorem mark_rows (v : Versions) (scope : Scope) (numbers : List Int) :
    (v.mark scope numbers).rows = v.rows.map (marked scope numbers) := rfl

@[simp] theorem marked_scope (numbers : List Int) (r : Version) :
    (marked scope numbers r).scope = r.scope := by
  unfold marked
  split <;> rfl

@[simp] theorem marked_number (numbers : List Int) (r : Version) :
    (marked scope numbers r).number = r.number := by
  unfold marked
  split <;> rfl

@[simp] theorem marked_schemaId (numbers : List Int) (r : Version) :
    (marked scope numbers r).schemaId = r.schemaId := by
  unfold marked
  split <;> rfl

theorem marked_nil (scope : Scope) (r : Version) : marked scope [] r = r :=
  if_neg fun found => List.not_mem_nil found.2

/-- Marking numbers is marking the first one and then the others. -/
theorem marked_cons (scope : Scope) (n : Int) (rest : List Int) (r : Version) :
    marked scope (n :: rest) r = marked scope rest (marked scope [n] r) := by
  by_cases here : r.scope = scope ∧ r.number = n
  · have first : marked scope [n] r = { r with deleted := true } :=
      if_pos ⟨here.1, List.mem_singleton.2 here.2⟩
    rw [first]
    unfold marked
    rw [if_pos ⟨here.1, here.2 ▸ List.mem_cons_self⟩]
    split <;> rfl
  · have first : marked scope [n] r = r :=
      if_neg fun found => here ⟨found.1, List.mem_singleton.1 found.2⟩
    rw [first]
    refine if_congr ?_ rfl rfl
    rw [List.mem_cons]
    exact and_congr_right fun same => or_iff_right fun named => here ⟨same, named⟩

/-- Marking revives nothing. -/
theorem live_of_marked {numbers : List Int} {r : Version}
    (live : (marked scope numbers r).deleted = false) : r.deleted = false := by
  unfold marked at live
  split at live
  · cases live
  · exact live

/-- An index stays sound when versions are marked as deleted. -/
theorem Sound.mark (sound : Sound schemas v) (scope : Scope) (numbers : List Int) :
    Sound schemas (v.mark scope numbers) where
  points r mem := by
    rw [mark_rows] at mem
    obtain ⟨old, listed, rfl⟩ := List.mem_map.1 mem
    rw [marked_schemaId]
    exact sound.points old listed
  positive r mem := by
    rw [mark_rows] at mem
    obtain ⟨old, listed, rfl⟩ := List.mem_map.1 mem
    rw [marked_number]
    exact sound.positive old listed
  ascending := by
    rw [mark_rows, List.pairwise_map]
    simpa using sound.ascending
  single := by
    rw [mark_rows, List.pairwise_map]
    refine sound.single.imp fun apart same live live' => ?_
    rw [marked_scope, marked_scope] at same
    rw [marked_schemaId, marked_schemaId]
    exact apart same (live_of_marked live) (live_of_marked live')

/-! ## Rows -/

/-- The row that a version is written as. -/
def row (r : Version) : VersionRow :=
  ⟨r.scope, .integer r.number, (Cell.ofJson? r.schemaId).getD .empty, r.deleted⟩

/-- Versions in ascending order are read back from their rows, in their order. -/
theorem recoverFrom_rows (v : Versions) (rest : List Version)
    (ids : ∀ r ∈ rest, ∃ n, r.schemaId = .int n) (positive : ∀ r ∈ rest, 0 < r.number)
    (ascending : (v.rows ++ rest).Pairwise fun a b => a.scope = b.scope → a.number < b.number) :
    recoverFrom v (rest.map row) = .ok ⟨v.rows ++ rest⟩ := by
  induction rest generalizing v with
  | nil =>
    rw [List.append_nil]
    rfl
  | cons r rest ih =>
    have next : v.rows ++ r :: rest = (v.add r).rows ++ rest := by
      show _ = (v.rows ++ [r]) ++ rest
      rw [List.append_assoc]
      rfl
    have above : ¬ r.number ≤ v.maxNumber r.scope := by
      have below := maxNumber_lt (positive r List.mem_cons_self) fun a mem same =>
        (List.pairwise_append.1 ascending).2.2 a mem r List.mem_cons_self same
      omega
    have number : numberAbove (v.maxNumber (row r).scope) (row r) = .ok r.number := if_neg above
    have same : (⟨(row r).scope, r.number, (row r).schemaId.toJson, (row r).deleted⟩ : Version) =
        r := by
      obtain ⟨n, points⟩ := ids r List.mem_cons_self
      cases r
      cases points
      rfl
    rw [List.map_cons, recoverFrom, number, next]
    dsimp only
    rw [same]
    rw [next] at ascending
    exact ih (v.add r) (fun a mem => ids a (List.mem_cons_of_mem _ mem))
      (fun a mem => positive a (List.mem_cons_of_mem _ mem)) ascending

/-! ## The order of rows -/

/-- Whether the row of a version comes before that of another one or in its place. -/
def before (a b : Version) : Bool := Tables.rowLe (row a) (row b)

theorem before_iff (a b : Version) :
    before a b = true ↔
      a.scope.render < b.scope.render ∨ a.scope.render = b.scope.render ∧ a.number ≤ b.number := by
  show (decide (a.scope.render < b.scope.render) ||
    (a.scope.render == b.scope.render && !decide (b.number < a.number))) = true ↔ _
  rw [Bool.or_eq_true, decide_eq_true_eq, Bool.and_eq_true, beq_iff_eq, Bool.not_eq_true',
    decide_eq_false_iff_not, Int.not_lt]

theorem before_trans (a b c : Version) (first : before a b = true) (second : before b c = true) :
    before a c = true := by
  rw [before_iff] at first second ⊢
  rcases first with lt | ⟨same, le⟩
  · rcases second with lt' | ⟨same', -⟩
    · exact .inl (lt_trans lt lt')
    · exact .inl (same' ▸ lt)
  · rw [same]
    rcases second with lt' | ⟨same', le'⟩
    · exact .inl lt'
    · exact .inr ⟨same', Int.le_trans le le'⟩

theorem before_total (a b : Version) : (before a b || before b a) = true := by
  rw [Bool.or_eq_true, before_iff, before_iff]
  rcases lt_trichotomy a.scope.render b.scope.render with lt | same | gt
  · exact .inl (.inl lt)
  · rcases Int.le_total a.number b.number with le | ge
    · exact .inl (.inr ⟨same, le⟩)
    · exact .inr (.inr ⟨same.symm, ge⟩)
  · exact .inr (.inl gt)

/-- The rows of versions in the order of a file are the rows of the versions in that order. -/
theorem versionsInOrder_eq {t : Tables} {rows : List Version}
    (written : t.versions = rows.map row) :
    t.versionsInOrder = (rows.mergeSort before).map row := by
  unfold Tables.versionsInOrder
  rw [written]
  exact (@List.map_mergeSort _ _ before Tables.rowLe row rows fun _ _ _ _ => rfl).symm

/-- In the order of a file the numbers of each scope go up. -/
theorem Sound.sorted_ascending (sound : Sound schemas v) {rows : List Version}
    (perm : rows.Perm v.rows) :
    (rows.mergeSort before).Pairwise fun a b => a.scope = b.scope → a.number < b.number := by
  have listed : (rows.mergeSort before).Perm v.rows := (List.mergeSort_perm rows before).trans perm
  have ordered := List.pairwise_mergeSort before_trans before_total rows
  have differ : (rows.mergeSort before).Pairwise fun a b =>
      a.scope = b.scope → a.number ≠ b.number := by
    refine (listed.pairwise_iff fun apart same => ?_).2 ?_
    · exact fun numbers => apart same.symm numbers.symm
    · exact sound.ascending.imp fun lt same => Int.ne_of_lt (lt same)
  refine (ordered.and differ).imp fun ⟨first, apart⟩ same => ?_
  have other := apart same
  rcases (before_iff _ _).1 first with lt | ⟨-, le⟩
  · rw [same] at lt
    exact absurd lt (lt_irrefl _)
  · omega

/-- An index is read back from the rows of a file: it is sound, it has the same versions, and those
of each scope are in the same order. -/
theorem Sound.recovered (sound : Sound schemas v) {t : Tables} {rows : List Version}
    (perm : rows.Perm v.rows) (written : t.versions = rows.map row) :
    ∃ w, recoverFrom {} t.versionsInOrder = .ok w ∧ Sound schemas w ∧ w.rows.Perm v.rows ∧
      ∀ scope, w.ofScope scope = v.ofScope scope := by
  have listed : (rows.mergeSort before).Perm v.rows := (List.mergeSort_perm rows before).trans perm
  have ascending := sound.sorted_ascending perm
  have sorted : Sound schemas ⟨rows.mergeSort before⟩ := by
    refine ⟨fun r mem => sound.points r (listed.subset mem),
      fun r mem => sound.positive r (listed.subset mem), ascending, ?_⟩
    exact (listed.pairwise_iff fun apart => apart.symm).2 sound.single
  refine ⟨⟨rows.mergeSort before⟩, ?_, sorted, listed, fun scope => ?_⟩
  · rw [versionsInOrder_eq written]
    refine recoverFrom_rows {} _ (fun r mem => ?_) sorted.positive ascending
    obtain ⟨e, -, points⟩ := sorted.points r mem
    exact ⟨e.id, points⟩
  · -- Both lists hold the same versions, and in both the numbers go up.
    have numbers : ∀ {u : Versions}, Sound schemas u →
        (u.ofScope scope).Pairwise fun a b => a.number < b.number := fun su =>
      (su.ascending.sublist List.filter_sublist).imp_of_mem fun ha hb lt =>
        lt ((mem_ofScope.1 ha).2.trans (mem_ofScope.1 hb).2.symm)
    refine List.Perm.eq_of_pairwise (fun a b _ _ lt gt => ?_) (numbers sorted) (numbers sound)
      (listed.filter _)
    omega

end AvroRegistry.Versions
