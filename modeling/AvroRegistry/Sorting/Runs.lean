import AvroRegistry.Sorting.Merge

/-!
# Sorting by runs

A stable sort that uses the order a list already has: it cuts the list into ascending or descending
runs, extends short ones by binary insertion, and merges neighbouring runs, those of about equal
length first. `sortBy` does this for any comparison, also for one that is no order or that fails;
the outcome is then what the sequence of comparisons makes it.
-/

namespace AvroRegistry.Sorting

variable {α ε : Type}

/-! ## Runs -/

/-- Puts values one by one into sorted ones, each behind all that it does not come before. -/
def insertAll (less : Less α ε) (sorted : Array α) : List α → Except ε (Array α)
  | [] => .ok sorted
  | v :: rest =>
    match bisect (isBefore less v sorted) 0 sorted.size with
    | .error e => .error e
    | .ok i => insertAll less (sorted.toList.take i ++ v :: sorted.toList.drop i).toArray rest

/-- How many of the values that follow one continue its run: each comes before the value in front of
it if the run descends, and none does otherwise. -/
def runLength (less : Less α ε) (descending : Bool) (last : α) : List α → Except ε Nat
  | [] => .ok 0
  | v :: rest =>
    match less v last with
    | .error e => .error e
    | .ok b =>
      if b = descending then (runLength less descending v rest).map (· + 1) else .ok 0

/-- The run at the beginning of a list, in ascending order, and the rest of the list. -/
def firstRun (less : Less α ε) : List α → Except ε (List α × List α)
  | [] => .ok ([], [])
  | [v] => .ok ([v], [])
  | v :: w :: rest => do
    let descending ← less w v
    let n := 2 + (← runLength less descending w rest)
    let run := (v :: w :: rest).take n
    return (if descending then run.reverse else run, (v :: w :: rest).drop n)

/-- The length to which short runs of a list are extended: that of the list, halved until it is
below 64, and one more if a half was lost on the way. -/
def shortestRun (lost : Bool) (length : Nat) : Nat :=
  if length < 64 then (if lost then length + 1 else length)
  else shortestRun (lost || length % 2 == 1) (length / 2)
termination_by length

/-- The next run of a list, extended if it is short, and the rest of the list. -/
def nextRun (less : Less α ε) (shortest : Nat) (values : List α) :
    Except ε (List α × List α) := do
  let (run, rest) ← firstRun less values
  let missing := shortest - run.length
  let extended ← insertAll less run.toArray (rest.take missing)
  return (extended.toList, rest.drop missing)

/-! ## Merging in the right order -/

/-- A run that waits to be merged: where it starts, its values, and how deep the boundary behind it
lies. -/
structure Pending (α : Type) where
  start : Nat
  values : List α
  depth : Nat := 0

/-- How deep the boundary between two neighbouring runs lies: the first binary digit in which the
middles of the runs differ as fractions of the whole. `first` and `second` are twice the middles. -/
def boundaryDepth (whole : Nat) : Nat → Nat → Nat → Nat
  | 0, _, _ => 1
  | fuel + 1, first, second =>
    if whole ≤ first then
      boundaryDepth whole fuel (2 * (first - whole)) (2 * (second - whole)) + 1
    else if whole ≤ second then 1
    else boundaryDepth whole fuel (2 * first) (2 * second) + 1

/-- Two neighbouring runs merged into one. -/
def Pending.merge (less : Less α ε) (left right : Pending α) (patience : Nat) :
    Except ε (Pending α × Nat) := do
  let (values, patience) ← mergeRuns less left.values right.values patience
  return ({ left with values := values }, patience)

/-- Merges the runs on top of a stack as long as the boundary between them lies deeper than a new
one, and marks the top with the depth of the new one. -/
def settleAbove (less : Less α ε) (depth : Nat) : List (Pending α) → Nat →
    Except ε (List (Pending α) × Nat)
  | top :: below :: rest, patience => do
    if depth < below.depth then
      let (merged, patience) ← below.merge less top patience
      settleAbove less depth (merged :: rest) patience
    else return ({ top with depth := depth } :: below :: rest, patience)
  | [top], patience => .ok ([{ top with depth := depth }], patience)
  | [], patience => .ok ([], patience)
termination_by stack => stack.length

/-- Puts a run on a stack. -/
def pushRun (less : Less α ε) (whole : Nat) (run : List α) (stack : List (Pending α))
    (patience : Nat) : Except ε (List (Pending α) × Nat) :=
  match stack with
  | [] => .ok ([{ start := 0, values := run }], patience)
  | top :: _ => do
    let first := 2 * top.start + top.values.length
    let second := first + top.values.length + run.length
    let depth := boundaryDepth whole (whole + 1) first second
    let (stack, patience) ← settleAbove less depth stack patience
    return ({ start := top.start + top.values.length, values := run } :: stack, patience)

/-- Merges all runs of a stack, the shorter neighbour of the second one first. -/
def collapse (less : Less α ε) : List (Pending α) → Nat → Except ε (List α)
  | top :: second :: third :: rest, patience => do
    if third.values.length < top.values.length then
      let (merged, patience) ← third.merge less second patience
      collapse less (top :: merged :: rest) patience
    else
      let (merged, patience) ← second.merge less top patience
      collapse less (merged :: third :: rest) patience
  | [top, second], patience => do
    let (merged, _) ← second.merge less top patience
    return merged.values
  | [top], _ => .ok top.values
  | [], _ => .ok []
termination_by stack => stack.length

/-- Cuts a list into runs and merges them. -/
def sortRuns (less : Less α ε) (whole : Nat) : Nat → List α → List (Pending α) → Nat →
    Except ε (List α)
  | fuel + 1, v :: rest, stack, patience => do
    let (run, rest) ← nextRun less (shortestRun false whole) (v :: rest)
    let (stack, patience) ← pushRun less whole run stack patience
    sortRuns less whole fuel rest stack patience
  | _, _, stack, patience => collapse less stack patience

/-- The values of a list in ascending order. -/
def sortBy (less : Less α ε) (values : List α) : Except ε (List α) :=
  sortRuns less values.length values.length values [] worthwhile

end AvroRegistry.Sorting
