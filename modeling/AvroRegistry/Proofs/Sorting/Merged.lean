import AvroRegistry.Proofs.Sorting.Permuted
import Mathlib.Data.List.Chain

/-!
# Merging keeps neighbours in order

Of two neighbours in what is merged from two runs, the first was found to come before the second, or
the second was found not to come before the first (`Precedes`), as long as the same is true of
the runs (`mergeRuns_ordered`). The comparison need be no order for that: every value that is put
behind another one either stood behind it in its run or was compared with it.

Of a merge on its way the invariant is `Merging.Placed`: it can go on with either run, and the run
that lies outside ends behind the other one. A run is left only at a place where a test has told
that the other one may go on (`Fits`).
-/

namespace AvroRegistry.Sorting

variable {α β γ ε : Type} {less : Less α ε}

/-- Whether a comparison lets one value stand in front of another. -/
def Precedes (less : Less α ε) (x y : α) : Prop := less x y = .ok true ∨ less y x = .ok false

/-! ## Boundaries -/

/-- A place between two bounds from which on a test holds, as far as that was tried. -/
structure Boundary (holds : Nat → Except ε Bool) (low high i : Nat) : Prop where
  low_le : low ≤ i
  le_high : i ≤ high
  here : i < high → holds i = .ok true
  before : low < i → holds (i - 1) = .ok false

theorem bisect_boundary {holds : Nat → Except ε Bool} {low high i : Nat} (le : low ≤ high)
    (ok : bisect holds low high = .ok i) : Boundary holds low high i := by
  fun_induction bisect holds low high with
  | case1 low high lt middle e told => cases ok
  | case2 low high lt middle told ih =>
    have found := ih (by omega) ok
    refine ⟨found.low_le, by have := found.le_high; omega, fun _ => ?_, found.before⟩
    by_cases inside : i < middle
    · exact found.here inside
    · obtain rfl : i = middle := by have := found.le_high; omega
      exact told
  | case3 low high lt middle told ih =>
    have found := ih (by omega) ok
    refine ⟨by have := found.low_le; omega, found.le_high, found.here, fun _ => ?_⟩
    by_cases inside : middle + 1 < i
    · exact found.before inside
    · obtain rfl : i = middle + 1 := by have := found.low_le; omega
      exact told
  | case4 low high none =>
    cases ok
    exact ⟨Nat.le_refl _, le, by omega, by omega⟩

/-- Widening ends where the test holds or at the last distance, and leaves one behind at which the
test failed. -/
theorem widen_eq_ok {holds : Nat → Except ε Bool} {most last distance l d : Nat}
    (further : last < distance) (inside : last < most)
    (ok : widen holds most last distance = .ok (l, d)) :
    (l = last ∨ holds l = .ok false) ∧ l < d ∧ d ≤ most ∧ (d < most → holds d = .ok true) := by
  fun_induction widen holds most last distance with
  | case1 last distance lt e told => cases ok
  | case2 last distance lt told =>
    cases ok
    exact ⟨.inl rfl, further, Nat.le_of_lt lt, fun _ => told⟩
  | case3 last distance lt told ih =>
    obtain ⟨behind, rest⟩ := ih (by omega) lt ok
    refine ⟨.inr ?_, rest⟩
    rcases behind with rfl | failed
    · exact told
    · exact failed
  | case4 last distance none =>
    cases ok
    exact ⟨.inl rfl, inside, Nat.le_refl _, fun lt => absurd lt (Nat.lt_irrefl _)⟩

theorem mapped_eq_ok {result : Except ε β} {f : β → γ} {c : γ} (ok : result.map f = .ok c) :
    ∃ b, result = .ok b ∧ f b = c := by
  cases result with
  | ok b => exact ⟨b, rfl, Except.ok.inj ok⟩
  | error e => cases ok

theorem negated_eq_ok {result : Except ε Bool} {b : Bool}
    (ok : (do return !(← result)) = Except.ok (ε := ε) b) : result = .ok (!b) := by
  obtain ⟨c, told, negated⟩ := bind_eq_ok.1 ok
  cases negated
  rw [told, Bool.not_not]

/-- The boundary that galloping finds around a hint. -/
theorem gallop_boundary {holds : Nat → Except ε Bool} {count hint i : Nat} (inside : hint < count)
    (ok : gallop holds count hint = .ok i) : Boundary holds 0 count i := by
  obtain ⟨holdsHere, told, ok⟩ := bind_eq_ok.1 ok
  cases holdsHere with
  | true =>
    obtain ⟨⟨l, d⟩, widened, ok⟩ := bind_eq_ok.1 ok
    obtain ⟨behind, lt, le, stopped⟩ := widen_eq_ok (Nat.zero_lt_one) (Nat.succ_pos hint) widened
    have found := bisect_boundary (by omega) ok
    have above : holds (hint - l) = .ok true := by
      rcases behind with rfl | failed
      · exact told
      · exact negated_eq_ok failed
    refine ⟨Nat.zero_le i, by have := found.le_high; omega, fun _ => ?_, fun _ => ?_⟩
    · by_cases low : i < hint - l
      · exact found.here low
      · obtain rfl : i = hint - l := by have := found.le_high; omega
        exact above
    · by_cases high : hint + 1 - d < i
      · exact found.before high
      · obtain rfl : i = hint + 1 - d := by have := found.low_le; omega
        have below := negated_eq_ok (stopped (by omega))
        rwa [show hint + 1 - d - 1 = hint - d by omega]
  | false =>
    obtain ⟨⟨l, d⟩, widened, ok⟩ := bind_eq_ok.1 ok
    obtain ⟨behind, lt, le, stopped⟩ := widen_eq_ok (Nat.zero_lt_one) (by omega) widened
    have found := bisect_boundary (by omega) ok
    have below : holds (hint + l) = .ok false := by
      rcases behind with rfl | failed
      · exact told
      · exact failed
    refine ⟨Nat.zero_le i, by have := found.le_high; omega, fun lt => ?_, fun _ => ?_⟩
    · by_cases low : i < hint + d
      · exact found.here low
      · obtain rfl : i = hint + d := by have := found.le_high; omega
        exact stopped (by omega)
    · by_cases high : hint + l + 1 < i
      · exact found.before high
      · obtain rfl : i = hint + l + 1 := by have := found.low_le; omega
        exact below

/-! ## Where a value belongs -/

/-- A place in a list at which a value can stand, by what is in front of it and what is behind. -/
structure Fits (R : α → α → Prop) (key : α) (values : List α) (i : Nat) : Prop where
  front : ∀ x ∈ (values.take i).getLast?, R x key
  behind : ∀ y ∈ (values.drop i).head?, R key y

/-- A place in a list from its end is one in the list the other way round. -/
theorem Fits.of_reverse {R : α → α → Prop} {key : α} {values : List α} {i : Nat}
    (fits : Fits R key values.reverse i) :
    Fits (fun x y => R y x) key values (values.length - i) := by
  obtain ⟨front, behind⟩ := fits
  rw [List.take_reverse, List.getLast?_reverse] at front
  rw [List.drop_reverse, List.head?_reverse] at behind
  exact ⟨behind, front⟩

/-- Whether a test on the places of a list tells where a value can stand. -/
def Tells (less : Less α ε) (key : α) (values : List α) (holds : Nat → Except ε Bool) : Prop :=
  ∀ i v, values[i]? = some v → (holds i = .ok true → Precedes less key v) ∧
    (holds i = .ok false → Precedes less v key)

theorem tells_isBefore (key : α) (values : List α) :
    Tells less key values (isBefore less key values.toArray) := by
  intro i v found
  unfold isBefore
  rw [List.getElem?_toArray, found]
  exact ⟨.inl, .inr⟩

theorem tells_isNotAfter (key : α) (values : List α) :
    Tells less key values (isNotAfter less key values.toArray) := by
  intro i v found
  unfold isNotAfter
  rw [List.getElem?_toArray, found]
  dsimp only
  cases told : less v key with
  | error e => exact ⟨nofun, nofun⟩
  | ok b =>
    cases b with
    | true => exact ⟨nofun, fun _ => .inl told⟩
    | false => exact ⟨fun _ => .inr told, nofun⟩

theorem Boundary.fits {key : α} {values : List α} {holds : Nat → Except ε Bool} {i : Nat}
    (tells : Tells less key values holds) (found : Boundary holds 0 values.length i) :
    Fits (Precedes less) key values i := by
  constructor
  · intro x last
    rw [List.getLast?_take] at last
    split at last
    · cases last
    · next some =>
      have lt : i - 1 < values.length := by have := found.le_high; omega
      rw [List.getElem?_eq_getElem lt, Option.some_or] at last
      exact (tells _ _ ((List.getElem?_eq_getElem lt).trans last)).2 (found.before (by omega))
  · intro y first
    rw [List.head?_drop] at first
    exact (tells _ _ first).1 (found.here (List.getElem?_eq_some_iff.1 first).1)

/-! ## Merging -/

/-- Whether a value may come next after another one on the way in a direction. -/
def Onward (less : Less α ε) (upward : Bool) (x y : α) : Prop :=
  if upward then Precedes less x y else Precedes less y x

/-- A list on the way in a direction, in ascending order. -/
def ascending (upward : Bool) (values : List α) : List α :=
  if upward then values else values.reverse

/-- Where a list is left for another one whose first value may come next, the way goes on. -/
theorem isChain_turn {R : α → α → Prop} {done first other : List α}
    (one : (done ++ first).IsChain R) (two : (done ++ other).IsChain R)
    (meet : ∀ x ∈ first.getLast?, ∀ y ∈ other.head?, R x y) :
    (done ++ (first ++ other)).IsChain R := by
  by_cases none : first = []
  · rwa [none]
  · rw [← List.append_assoc]
    exact one.append_overlap (one.right_of_append.append two.right_of_append meet) none

theorem isChain_taken {R : α → α → Prop} {done values rest : List α} (n : Nat)
    (way : (done ++ (values ++ rest)).IsChain R) : (done ++ values.take n).IsChain R := by
  rw [← List.append_assoc] at way
  have one := way.left_of_append
  rw [← List.take_append_drop n values, ← List.append_assoc] at one
  exact one.left_of_append

namespace Merging

/-- Where a merge is on its way between two lists that stay: it can go on with either run, and
the run that lies outside ends behind the other one. -/
structure Placed (less : Less α ε) (upward : Bool) (base tail : List α) (m : Merging α) : Prop where
  direction : m.upward = upward
  left : (base ++ m.merged.reverse ++ (m.left ++ tail)).IsChain (Onward less upward)
  right : (base ++ m.merged.reverse ++ (m.right ++ tail)).IsChain (Onward less upward)
  outer : ∀ x ∈ m.left.getLast?, ∀ y ∈ m.right.getLast?, Precedes less y x

variable {upward : Bool} {base tail : List α} {m : Merging α}

theorem getLast?_of_drop {values : List α} {n : Nat} {x : α}
    (last : x ∈ (values.drop n).getLast?) : x ∈ values.getLast? := by
  rw [List.getLast?_drop] at last
  split at last
  · cases last
  · exact last

theorem merged_taken (base merged values : List α) (n : Nat) (rest : List α) :
    base ++ ((values.take n).reverse ++ merged).reverse ++ rest =
      base ++ merged.reverse ++ (values.take n ++ rest) := by
  rw [List.reverse_append, List.reverse_reverse]
  simp only [List.append_assoc]

theorem Placed.takeLeft (placed : m.Placed less upward base tail) {n : Nat} (more : m.right ≠ [])
    (meet : ∀ x ∈ (m.left.take n).getLast?, ∀ y ∈ m.right.head?, Onward less upward x y) :
    (m.takeLeft n).Placed less upward base tail := by
  refine ⟨placed.direction, ?_, ?_, fun x last => placed.outer x (getLast?_of_drop last)⟩
  · show (base ++ ((m.left.take n).reverse ++ m.merged).reverse ++
      (m.left.drop n ++ tail)).IsChain (Onward less upward)
    rw [merged_taken, ← List.append_assoc (m.left.take n), List.take_append_drop]
    exact placed.left
  · show (base ++ ((m.left.take n).reverse ++ m.merged).reverse ++
      (m.right ++ tail)).IsChain (Onward less upward)
    rw [merged_taken]
    refine isChain_turn (isChain_taken n placed.left) placed.right ?_
    rwa [List.head?_append_of_ne_nil _ more]

theorem Placed.takeRight (placed : m.Placed less upward base tail) {n : Nat} (more : m.left ≠ [])
    (meet : ∀ y ∈ (m.right.take n).getLast?, ∀ x ∈ m.left.head?, Onward less upward y x) :
    (m.takeRight n).Placed less upward base tail := by
  refine ⟨placed.direction, ?_, ?_, fun x last y last' =>
    placed.outer x last y (getLast?_of_drop last')⟩
  · show (base ++ ((m.right.take n).reverse ++ m.merged).reverse ++
      (m.left ++ tail)).IsChain (Onward less upward)
    rw [merged_taken]
    refine isChain_turn (isChain_taken n placed.right) placed.left ?_
    rwa [List.head?_append_of_ne_nil _ more]
  · show (base ++ ((m.right.take n).reverse ++ m.merged).reverse ++
      (m.right.drop n ++ tail)).IsChain (Onward less upward)
    rw [merged_taken, ← List.append_assoc (m.right.take n), List.take_append_drop]
    exact placed.right

/-- What is still to follow, once nothing is to be compared any more, may follow. -/
theorem Placed.remainder (placed : m.Placed less upward base tail) {remainder : List α}
    (rest : m.remainder? = some remainder) :
    (base ++ m.merged.reverse ++ (remainder ++ tail)).IsChain (Onward less upward) := by
  obtain ⟨direction, left, right, outer⟩ := placed
  obtain ⟨up, lefts, rights, merged, patience⟩ := m
  obtain rfl : up = upward := direction
  unfold remainder? at rest
  dsimp only at left right outer rest ⊢
  split at rest
  · next goesUp =>
    cases goesUp
    split at rest
    · cases rest
      exact left
    · cases rest
      exact right
    · cases rest
      rw [List.append_assoc rights]
      rw [← List.append_assoc] at right
      exact isChain_turn right.left_of_append left fun y behind x front => outer x front y behind
    · cases rest
  · next goesDown =>
    rw [Bool.not_eq_true] at goesDown
    subst goesDown
    split at rest
    · cases rest
      exact right
    · cases rest
      exact left
    · cases rest
      rw [List.append_assoc lefts]
      rw [← List.append_assoc] at left
      exact isChain_turn left.left_of_append right fun x behind y front => outer x behind y front
    · cases rest

/-- As long as something is to be compared, there are values in both runs. -/
theorem some_of_remainder? (more : m.remainder? = none) : m.left ≠ [] ∧ m.right ≠ [] := by
  obtain ⟨upward, left, right, merged, patience⟩ := m
  constructor
  · rintro rfl
    cases upward <;> cases right <;> simp [remainder?] at more
  · rintro rfl
    cases upward <;> cases left <;> simp [remainder?] at more

end Merging

/-- What a step of merging is to give, going on or ended. -/
def Yields (goes : β → Prop) (ends : List α → Prop) : Progress α ε β → Prop
  | .ok b => goes b
  | .error (.finished sorted _) => ends sorted
  | .error (.failed _) => True

theorem Yields.bind {goes : β → Prop} {goes' : γ → Prop} {ends : List α → Prop}
    {step : Progress α ε β} {next : β → Progress α ε γ} (first : Yields goes ends step)
    (second : ∀ b, goes b → Yields goes' ends (next b)) : Yields goes' ends (step >>= next) := by
  cases step with
  | ok b => exact second b first
  | error ending =>
    cases ending with
    | finished sorted patience => exact first
    | failed e => trivial

theorem yields_compared {ends : List α → Prop} (result : Except ε β) :
    Yields (fun b => result = .ok b) ends (compared result) := by
  cases result with
  | ok b => exact rfl
  | error e => trivial

section Merging

variable {upward : Bool} {base tail : List α} {m : Merging α} {bound : Nat}

/-- A merge on its way with both runs in it, and with no more values than some number. -/
structure Merging.Open (less : Less α ε) (upward : Bool) (base tail : List α) (bound : Nat)
    (m : Merging α) : Prop extends m.Placed less upward base tail where
  left_some : m.left ≠ []
  right_some : m.right ≠ []
  within : m.left.length + m.right.length ≤ bound

/-- What is merged in the end stands in order between the lists that stay. -/
def Ordered (less : Less α ε) (upward : Bool) (base tail sorted : List α) : Prop :=
  (base ++ (ascending upward sorted ++ tail)).IsChain (Onward less upward)

theorem ascending_result (m : Merging α) (remainder : List α) :
    ascending m.upward (m.result remainder) = m.merged.reverse ++ remainder := by
  unfold ascending Merging.result
  cases m.upward with
  | true => rfl
  | false => exact List.reverse_reverse _

theorem Merging.Placed.ordered (placed : m.Placed less upward base tail) {remainder : List α}
    (follows : (base ++ m.merged.reverse ++ (remainder ++ tail)).IsChain (Onward less upward)) :
    Ordered less upward base tail (m.result remainder) := by
  unfold Ordered
  rw [← placed.direction, ascending_result, placed.direction]
  rwa [List.append_assoc, ← List.append_assoc base]

theorem yields_proceed (placed : m.Placed less upward base tail)
    (within : m.left.length + m.right.length ≤ bound) :
    Yields (ε := ε) (fun next => next = m ∧ next.Open less upward base tail bound)
      (Ordered less upward base tail) (proceed m) := by
  unfold proceed
  split
  · next rest => exact placed.ordered (placed.remainder rest)
  · next more =>
    obtain ⟨left, right⟩ := Merging.some_of_remainder? more
    exact ⟨rfl, placed, left, right, within⟩

/-- What the search through a run in its direction finds. -/
theorem fits_search {key : α} {values : List α} {test : List α → Nat → Except ε Bool} {n : Nat}
    (tells : ∀ values, Tells less key values (test values)) (some : values ≠ [])
    (ok : (if upward then gallop (test values) values.length 0
      else (gallop (test values.reverse) values.length (values.length - 1)).map
        fun n => values.length - n) = .ok n) :
    Fits (Onward less upward) key values n := by
  have positive := List.length_pos_iff.2 some
  cases upward with
  | true => exact (gallop_boundary positive ok).fits (tells values)
  | false =>
    obtain ⟨i, found, rfl⟩ := mapped_eq_ok ok
    have boundary := gallop_boundary (by omega) found
    rw [← List.length_reverse] at boundary
    exact (boundary.fits (tells values.reverse)).of_reverse

theorem fits_leftBefore {key : α} {n : Nat} (direction : m.upward = upward) (some : m.left ≠ [])
    (ok : m.leftBefore less key = .ok n) : Fits (Onward less upward) key m.left n :=
  fits_search (fun values => tells_isBefore key values) some (direction ▸ ok)

theorem fits_rightBefore {key : α} {n : Nat} (direction : m.upward = upward)
    (some : m.right ≠ []) (ok : m.rightBefore less key = .ok n) :
    Fits (Onward less upward) key m.right n :=
  fits_search (fun values => tells_isNotAfter key values) some (direction ▸ ok)

theorem head?_of_take_one {values : List α} {x : α} (last : x ∈ (values.take 1).getLast?) :
    x ∈ values.head? := by
  cases values with
  | nil => cases last
  | cons v rest => exact last

theorem yields_takeLeft (goes : m.Open less upward base tail bound) (n left : Nat)
    (within : m.left.length - n + m.right.length ≤ left)
    (meet : ∀ x ∈ (m.left.take n).getLast?, ∀ y ∈ m.right.head?, Onward less upward x y) :
    Yields (ε := ε) (fun next => next = m.takeLeft n ∧ next.Open less upward base tail left)
      (Ordered less upward base tail) (proceed (m.takeLeft n)) := by
  refine yields_proceed (goes.takeLeft goes.right_some meet) ?_
  show (m.left.drop n).length + m.right.length ≤ left
  rwa [List.length_drop]

theorem yields_takeRight (goes : m.Open less upward base tail bound) (n left : Nat)
    (within : m.left.length + (m.right.length - n) ≤ left)
    (meet : ∀ y ∈ (m.right.take n).getLast?, ∀ x ∈ m.left.head?, Onward less upward y x) :
    Yields (ε := ε) (fun next => next = m.takeRight n ∧ next.Open less upward base tail left)
      (Ordered less upward base tail) (proceed (m.takeRight n)) := by
  refine yields_proceed (goes.takeRight goes.left_some meet) ?_
  show m.left.length + (m.right.drop n).length ≤ left
  rwa [List.length_drop]

/-- Galloping through both runs stays in order: a run is left where the other one goes on. -/
theorem yields_gallopOnce (goes : m.Open less upward base tail bound) :
    Yields (fun r : Merging α × Bool => r.1.Open less upward base tail bound)
      (Ordered less upward base tail) (gallopOnce less m) := by
  unfold gallopOnce
  split
  · exact goes
  · next key rest first =>
    have key_first : ∀ y ∈ m.right.head?, y = key := by
      rw [first]
      exact fun y mem => (Option.mem_some.1 mem).symm
    refine (yields_compared _).bind fun lefts found => ?_
    have fits := fits_leftBefore goes.direction goes.left_some found
    have within := goes.within
    refine (yields_takeLeft goes lefts bound (by omega) fun x last y front => ?_).bind ?_
    · rw [key_first y front]
      exact fits.front x last
    rintro _ ⟨rfl, goes⟩
    have within := goes.within
    refine (yields_takeRight goes 1 bound (by omega) fun y last x front => ?_).bind ?_
    · rw [key_first y (head?_of_take_one last)]
      exact fits.behind x front
    rintro n ⟨-, goes⟩
    split
    · exact goes
    · next key rest first =>
      have key_first : ∀ x ∈ n.left.head?, x = key := by
        rw [first]
        exact fun x mem => (Option.mem_some.1 mem).symm
      refine (yields_compared _).bind fun rights found => ?_
      have fits := fits_rightBefore goes.direction goes.right_some found
      have within := goes.within
      refine (yields_takeRight goes rights bound (by omega) fun y last x front => ?_).bind ?_
      · rw [key_first x front]
        exact fits.front y last
      rintro _ ⟨rfl, goes⟩
      have within := goes.within
      refine (yields_takeLeft goes 1 bound (by omega) fun x last y front => ?_).bind ?_
      · rw [key_first x (head?_of_take_one last)]
        exact fits.behind y front
      rintro n ⟨-, goes⟩
      exact goes

theorem yields_gallopOn (fuel : Nat) (goes : m.Open less upward base tail bound) :
    Yields (Merging.Open less upward base tail bound) (Ordered less upward base tail)
      (gallopOn less fuel m) := by
  induction fuel generalizing m with
  | zero => exact goes
  | succ fuel ih =>
    rw [gallopOn]
    refine (yields_gallopOnce goes).bind fun r goes => ?_
    obtain ⟨n, again⟩ := r
    split
    · next h =>
      cases h
      -- The patience is all that changes.
      obtain ⟨⟨direction, left, right, outer⟩, leftSome, rightSome, within⟩ := goes
      split
      · exact ih ⟨⟨direction, left, right, outer⟩, leftSome, rightSome, within⟩
      · exact ⟨⟨direction, left, right, outer⟩, leftSome, rightSome, within⟩

/-- A comparison of the first values of both runs says which of them may come next. -/
theorem onward_of_compared (upward : Bool) {x y : α} {isLess : Bool}
    (told : less y x = .ok isLess) :
    if isLess != upward then Onward less upward x y else Onward less upward y x := by
  unfold Onward Precedes
  cases isLess <;> cases upward <;> simp [told]

/-- Merging ends, and in order. -/
theorem yields_mergeFrom (fuel lefts rights : Nat) (goes : m.Open less upward base tail fuel) :
    Yields (fun _ : Unit => False) (Ordered less upward base tail)
      (mergeFrom less fuel lefts rights m) := by
  induction fuel generalizing lefts rights m with
  | zero =>
    have within := goes.within
    have some := List.length_pos_iff.2 goes.left_some
    omega
  | succ fuel ih =>
    have within := goes.within
    rw [mergeFrom]
    split
    · next x _ y _ left right =>
      refine (yields_compared _).bind fun isLess told => ?_
      have next := onward_of_compared upward told
      split
      next lefts rights taken took =>
        have step : Yields (ε := ε) (fun next => next = taken ∧
            next.Open less upward base tail fuel) (Ordered less upward base tail)
            (proceed taken) := by
          rw [goes.direction] at took
          split at took
          · next wins =>
            rw [if_pos wins] at next
            cases took
            refine yields_takeLeft goes 1 fuel ?_ fun x' last y' front => ?_
            · rw [left, List.length_cons] at within ⊢
              omega
            · rw [left] at last
              rw [right] at front
              cases last
              cases front
              exact next
          · next loses =>
            rw [if_neg loses] at next
            cases took
            refine yields_takeRight goes 1 fuel ?_ fun y' last x' front => ?_
            · rw [right, List.length_cons] at within ⊢
              omega
            · rw [right] at last
              rw [left] at front
              cases last
              cases front
              exact next
        refine step.bind fun n h => ?_
        obtain ⟨-, goes⟩ := h
        split
        · exact (yields_gallopOn fuel goes).bind fun n goes => ih 0 0 goes
        · exact ih lefts rights goes
    · next none =>
      obtain ⟨x, xs, left⟩ := List.exists_cons_of_ne_nil goes.left_some
      obtain ⟨y, ys, right⟩ := List.exists_cons_of_ne_nil goes.right_some
      exact (none x xs y ys left right).elim

theorem yields_merging (fuel : Nat) (placed : m.Placed less upward base tail)
    (within : m.left.length + m.right.length ≤ fuel) :
    Yields (fun _ : Unit => False) (Ordered less upward base tail)
      (proceed m >>= mergeFrom less fuel 0 0) := by
  refine (yields_proceed placed within).bind fun n h => ?_
  exact yields_mergeFrom fuel 0 0 h.2

end Merging

/-! ## Two runs -/

/-- Two runs between two lists that stay, each in order there, of which the right one begins first
and the left one ends last. -/
structure Trimmed (less : Less α ε) (front left right back : List α) : Prop where
  left_ordered : (front ++ (left ++ back)).IsChain (Precedes less)
  right_ordered : (front ++ (right ++ back)).IsChain (Precedes less)
  left_some : left ≠ []
  right_some : right ≠ []
  begins : ∀ y ∈ right.head?, ∀ x ∈ left.head?, Precedes less y x
  ends : ∀ x ∈ left.getLast?, ∀ y ∈ right.getLast?, Precedes less y x

section Trimmed

variable {front left right back : List α} (trimmed : Trimmed less front left right back)

theorem isChain_downward {values : List α} :
    (back.reverse ++ (values.reverse ++ front.reverse)).IsChain (Onward less false) ↔
      (front ++ (values ++ back)).IsChain (Precedes less) := by
  rw [← List.reverse_append, ← List.reverse_append, List.append_assoc]
  exact List.isChain_reverse

include trimmed

theorem Trimmed.placed_upward (patience : Nat) :
    (⟨true, left, right, [], patience⟩ : Merging α).Placed less true front back := by
  refine ⟨rfl, ?_, ?_, trimmed.ends⟩
  · rw [List.reverse_nil, List.append_nil]
    exact trimmed.left_ordered
  · rw [List.reverse_nil, List.append_nil]
    exact trimmed.right_ordered

theorem Trimmed.placed_downward (patience : Nat) :
    (⟨false, left.reverse, right.reverse, [], patience⟩ : Merging α).Placed less false
      back.reverse front.reverse := by
  refine ⟨rfl, ?_, ?_, fun x first y first' => ?_⟩
  · rw [List.reverse_nil, List.append_nil]
    exact isChain_downward.2 trimmed.left_ordered
  · rw [List.reverse_nil, List.append_nil]
    exact isChain_downward.2 trimmed.right_ordered
  · rw [List.getLast?_reverse] at first first'
    exact trimmed.begins y first' x first

theorem Trimmed.yields_upward (patience : Nat) :
    Yields (fun _ : Unit => False) (Ordered less true front back)
      (proceed ((⟨true, left, right, [], patience⟩ : Merging α).takeRight 1) >>=
        mergeFrom less (left.length + right.length) 0 0) := by
  refine yields_merging _ ((trimmed.placed_upward patience).takeRight trimmed.left_some ?_) ?_
  · exact fun y last x first => trimmed.begins y (head?_of_take_one last) x first
  · show left.length + (right.drop 1).length ≤ _
    rw [List.length_drop]
    omega

theorem Trimmed.yields_downward (patience : Nat) :
    Yields (fun _ : Unit => False) (Ordered less false back.reverse front.reverse)
      (proceed ((⟨false, left.reverse, right.reverse, [], patience⟩ : Merging α).takeLeft 1) >>=
        mergeFrom less (left.length + right.length) 0 0) := by
  refine yields_merging _ ((trimmed.placed_downward patience).takeLeft ?_ ?_) ?_
  · exact fun none => trimmed.right_some (List.reverse_eq_nil_iff.1 none)
  · intro x first y last
    have last' := head?_of_take_one first
    rw [List.head?_reverse] at last last'
    exact trimmed.ends x last' y last
  · show (left.reverse.drop 1).length + right.reverse.length ≤ _
    rw [List.length_drop, List.length_reverse, List.length_reverse]
    omega

/-- Two runs are merged in order between the lists that stay. -/
theorem Trimmed.ordered {sorted : List α} {patience patience' : Nat}
    (ok : mergeTrimmed less left right patience = .ok (sorted, patience')) :
    (front ++ (sorted ++ back)).IsChain (Precedes less) := by
  have upward := trimmed.yields_upward patience
  have downward := trimmed.yields_downward patience
  unfold mergeTrimmed at ok
  dsimp only at ok
  split at ok
  · next ended =>
    cases ok
    split at ended
    · rw [ended] at upward
      exact upward
    · rw [ended] at downward
      exact isChain_downward.1 downward
  · cases ok
  · next ended =>
    split at ended
    · rw [ended] at upward
      exact upward.elim
    · rw [ended] at downward
      exact downward.elim

end Trimmed

/-- Where neither the beginning of the left run nor the end of the right one has its place in the
other run, what is between them is trimmed. -/
theorem trimmed_of_fits {left rest : List α} {first last : α} {start stop : Nat}
    (leftOrdered : left.IsChain (Precedes less))
    (rightOrdered : (first :: rest).IsChain (Precedes less))
    (atStart : Fits (Precedes less) first left start)
    (atStop : Fits (Precedes less) last (first :: rest) stop)
    (ends : (left.drop start).getLast? = some last) (some : stop ≠ 0) :
    Trimmed less (left.take start) (left.drop start) ((first :: rest).take stop)
      ((first :: rest).drop stop) where
  left_ordered := by
    rw [← List.append_assoc, List.take_append_drop]
    refine leftOrdered.append (rightOrdered.drop stop) fun x mem y behind => ?_
    obtain rfl := Option.mem_unique mem (Merging.getLast?_of_drop ends)
    exact atStop.behind y behind
  right_ordered := by
    rw [List.take_append_drop]
    refine (leftOrdered.take start).append rightOrdered fun x front y mem => ?_
    cases mem
    exact atStart.front x front
  left_some := by
    intro none
    rw [none] at ends
    cases ends
  right_some := fun none => (List.take_eq_nil_iff.1 none).elim some (List.cons_ne_nil _ _)
  begins := by
    intro y mem x behind
    rw [List.head?_take, if_neg some] at mem
    cases mem
    exact atStart.behind x behind
  ends := by
    intro x mem y front
    obtain rfl := Option.mem_unique mem ends
    exact atStop.front y front

theorem mergeRuns_ordered {left right sorted : List α} {patience patience' : Nat}
    (leftOrdered : left.IsChain (Precedes less)) (rightOrdered : right.IsChain (Precedes less))
    (ok : mergeRuns less left right patience = .ok (sorted, patience')) :
    sorted.IsChain (Precedes less) := by
  unfold mergeRuns at ok
  split at ok
  · cases ok
    exact leftOrdered
  · next first rest =>
    by_cases some : left = []
    · subst some
      obtain ⟨start, -, ok⟩ := bind_eq_ok.1 ok
      rw [List.drop_nil] at ok
      cases ok
      exact rightOrdered
    obtain ⟨start, found, ok⟩ := bind_eq_ok.1 ok
    have atStart := (gallop_boundary (List.length_pos_iff.2 some) found).fits
      (tells_isBefore first left)
    split at ok
    · next none =>
      cases ok
      have all := List.drop_eq_nil_iff.1 (List.getLast?_eq_none_iff.1 none)
      have front := atStart.front
      rw [List.take_of_length_le all] at front
      refine leftOrdered.append rightOrdered fun x last y mem => ?_
      cases mem
      exact front x last
    · next last ends =>
      obtain ⟨stop, found, ok⟩ := bind_eq_ok.1 ok
      have atStop := (gallop_boundary (by simp) found).fits (tells_isNotAfter last (first :: rest))
      split at ok
      · next none =>
        cases ok
        subst none
        refine leftOrdered.append rightOrdered fun x mem y behind => ?_
        obtain rfl := Option.mem_unique mem (Merging.getLast?_of_drop ends)
        exact atStop.behind y behind
      · next more =>
        obtain ⟨⟨values, patience''⟩, merged, ok⟩ := bind_eq_ok.1 ok
        cases ok
        rw [List.append_assoc]
        have trimmed := trimmed_of_fits leftOrdered rightOrdered atStart atStop ends more
        exact trimmed.ordered merged

end AvroRegistry.Sorting
