/-!
# Merging runs

Two neighbouring runs of a list are merged into one. Where the comparison is an order, this is the
stable merge; the module fixes in addition which values are compared and when, so that the outcome
is determined also for a comparison that is no order, or that fails for some values.

A boundary in a run is found by `gallop`: the distance from a hint is doubled until the boundary is
passed, and the last interval is halved. Merging goes from the end at which the shorter run lies
outside, one value at a time, until one run has won so often in a row that galloping pays.
-/

namespace AvroRegistry.Sorting

/-- A comparison that can fail: whether the first value comes before the second. -/
abbrev Less (α ε : Type) := α → α → Except ε Bool

variable {α ε : Type}

/-! ## Boundaries -/

/-- The boundary between `lo` and `hi` from which on a test holds, found by halving. -/
def bisect (holds : Nat → Except ε Bool) (lo hi : Nat) : Except ε Nat :=
  if lo < hi then
    let middle := lo + (hi - lo) / 2
    match holds middle with
    | .error e => .error e
    | .ok true => bisect holds lo middle
    | .ok false => bisect holds (middle + 1) hi
  else .ok lo
termination_by hi - lo

/-- The last distance at which a test failed and the first one tried at which it held, where each
distance is twice the last one and one more, and none is above `most`. -/
def widen (holds : Nat → Except ε Bool) (most last distance : Nat) : Except ε (Nat × Nat) :=
  if distance < most then
    match holds distance with
    | .error e => .error e
    | .ok true => .ok (last, distance)
    | .ok false => widen holds most distance (2 * distance + 1)
  else .ok (last, most)
termination_by most - distance

/-- The boundary among `count` places from which on a test holds, looked for around a hint. -/
def gallop (holds : Nat → Except ε Bool) (count hint : Nat) : Except ε Nat := do
  if ← holds hint then
    let (last, distance) ← widen (fun d => do return !(← holds (hint - d))) (hint + 1) 0 1
    bisect holds (hint + 1 - distance) (hint - last)
  else
    let (last, distance) ← widen (fun d => holds (hint + d)) (count - hint) 0 1
    bisect holds (hint + last + 1) (hint + distance)

/-- Whether a value comes before the one at a place, as it does before a place beyond the end. -/
def isBefore (less : Less α ε) (key : α) (values : Array α) (i : Nat) : Except ε Bool :=
  match values[i]? with
  | some v => less key v
  | none => .ok true

/-- Whether the value at a place does not come before another one. -/
def isNotAfter (less : Less α ε) (key : α) (values : Array α) (i : Nat) : Except ε Bool :=
  match values[i]? with
  | some v => (less v key).map fun b => !b
  | none => .ok true

/-! ## The state of merging -/

/-- Two runs being merged, upward from their first values or downward from their last ones. Both
runs and what has been merged are listed in that direction, the merged values in reverse. -/
structure Merging (α : Type) where
  upward : Bool
  left : List α
  right : List α
  merged : List α := []
  /-- How often in a row one run has to win before galloping begins. -/
  patience : Nat

namespace Merging

/-- Takes some values of the left run. -/
def takeLeft (m : Merging α) (n : Nat) : Merging α :=
  { m with left := m.left.drop n, merged := (m.left.take n).reverse ++ m.merged }

/-- Takes some values of the right run. -/
def takeRight (m : Merging α) (n : Nat) : Merging α :=
  { m with right := m.right.drop n, merged := (m.right.take n).reverse ++ m.merged }

/-- What is still to follow if nothing needs to be compared any more. The last value of the run that
lies outside is known to come after everything else. -/
def remainder? (m : Merging α) : Option (List α) :=
  if m.upward then
    match m.left, m.right with
    | left, [] => some left
    | [], right => some right
    | [last], right => some (right ++ [last])
    | _, _ => none
  else
    match m.left, m.right with
    | [], right => some right
    | left, [] => some left
    | left, [last] => some (left ++ [last])
    | _, _ => none

/-- All values in ascending order, given those that are still to follow. -/
def result (m : Merging α) (remainder : List α) : List α :=
  let values := m.merged.reverse ++ remainder
  if m.upward then values else values.reverse

/-- How many values of the left run go before a value of the right one. -/
def leftBefore (m : Merging α) (less : Less α ε) (key : α) : Except ε Nat :=
  let count := m.left.length
  if m.upward then gallop (isBefore less key m.left.toArray) count 0
  else
    (gallop (isBefore less key m.left.reverse.toArray) count (count - 1)).map fun n => count - n

/-- How many values of the right run go before a value of the left one. -/
def rightBefore (m : Merging α) (less : Less α ε) (key : α) : Except ε Nat :=
  let count := m.right.length
  if m.upward then gallop (isNotAfter less key m.right.toArray) count 0
  else
    (gallop (isNotAfter less key m.right.reverse.toArray) count (count - 1)).map fun n => count - n

end Merging

/-! ## Merging -/

/-- How merging ends: with all values and the patience that is left, or with a failed comparison. -/
inductive Ending (α ε : Type) where
  | finished (values : List α) (patience : Nat)
  | failed (e : ε)

/-- A step of merging. -/
abbrev Progress (α ε β : Type) := Except (Ending α ε) β

/-- A comparison as a step of merging. -/
def compared {β : Type} : Except ε β → Progress α ε β
  | .ok b => .ok b
  | .error e => .error (.failed e)

/-- Goes on with merging if anything is left to compare. -/
def proceed (m : Merging α) : Progress α ε (Merging α) :=
  match m.remainder? with
  | some remainder => .error (.finished (m.result remainder) m.patience)
  | none => .ok m

/-- The number of values that make a gallop worth while. -/
def worthwhile : Nat := 7

/-- Gallops through the left run, then through the right one, and says whether that was worth
while. -/
def gallopOnce (less : Less α ε) (m : Merging α) : Progress α ε (Merging α × Bool) := do
  match m.right with
  | [] => return (m, false)
  | key :: _ =>
    let lefts ← compared (m.leftBefore less key)
    let m ← proceed (m.takeLeft lefts)
    let m ← proceed (m.takeRight 1)
    match m.left with
    | [] => return (m, false)
    | key :: _ =>
      let rights ← compared (m.rightBefore less key)
      let m ← proceed (m.takeRight rights)
      let m ← proceed (m.takeLeft 1)
      return (m, decide (worthwhile ≤ lefts) || decide (worthwhile ≤ rights))

/-- Gallops as long as it is worth while. Every round but the first takes one from the patience, and
stopping adds one to it. -/
def gallopOn (less : Less α ε) : Nat → Merging α → Progress α ε (Merging α)
  | 0, m => .ok m
  | fuel + 1, m => do
    let (m, again) ← gallopOnce less m
    if again then gallopOn less fuel { m with patience := max (m.patience - 1) 1 }
    else return { m with patience := m.patience + 1 }

/-- Merges value by value; `lefts` and `rights` say how often the left or the right run has won last
in a row. -/
def mergeFrom (less : Less α ε) : Nat → Nat → Nat → Merging α → Progress α ε Unit
  | 0, _, _, m => .error (.finished (m.result (m.left ++ m.right)) m.patience)
  | fuel + 1, lefts, rights, m =>
    match m.left, m.right with
    | x :: _, y :: _ => do
      let isLess ← compared (less y x)
      let (lefts, rights, m) :=
        if isLess != m.upward then (lefts + 1, 0, m.takeLeft 1) else (0, rights + 1, m.takeRight 1)
      let m ← proceed m
      if m.patience ≤ lefts || m.patience ≤ rights then
        let m ← gallopOn less fuel m
        mergeFrom less fuel 0 0 m
      else mergeFrom less fuel lefts rights m
    | left, right => .error (.finished (m.result (left ++ right)) m.patience)

/-- Merges two runs of which the first value of the right one comes first and the last value of the
left one comes last, from the end at which the shorter run is outside. -/
def mergeTrimmed (less : Less α ε) (left right : List α) (patience : Nat) :
    Except ε (List α × Nat) :=
  let begun : Merging α :=
    if left.length ≤ right.length then
      let start : Merging α := { upward := true, left, right, patience }
      start.takeRight 1
    else
      let start : Merging α :=
        { upward := false, left := left.reverse, right := right.reverse, patience }
      start.takeLeft 1
  match proceed begun >>= mergeFrom less (left.length + right.length) 0 0 with
  | .error (.finished values patience) => .ok (values, patience)
  | .error (.failed e) => .error e
  | .ok () => .ok (left ++ right, patience)

/-- Merges two neighbouring runs: what the left one has at its beginning and the right one at its
end, beyond all values of the other, stays where it is. -/
def mergeRuns (less : Less α ε) (left right : List α) (patience : Nat) :
    Except ε (List α × Nat) :=
  match right with
  | [] => .ok (left, patience)
  | first :: _ => do
    let start ← gallop (isBefore less first left.toArray) left.length 0
    match (left.drop start).getLast? with
    | none => return (left ++ right, patience)
    | some last =>
      let stop ← gallop (isNotAfter less last right.toArray) right.length (right.length - 1)
      if stop = 0 then return (left ++ right, patience)
      let (values, patience) ← mergeTrimmed less (left.drop start) (right.take stop) patience
      return (left.take start ++ values ++ right.drop stop, patience)

end AvroRegistry.Sorting
