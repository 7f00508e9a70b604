import AvroRegistry.Proofs.Sorting.Merged

/-!
# Sorting what is sorted

A list that sorting gives stays as it is when it is sorted again, as long as of two values at most
one comes before the other. No order is needed for that: neighbours in the outcome have been
compared (`sortBy_precedes`), so that no value comes before the one in front of it
(`sortBy_ascending`), and such a list is one run (`sortBy_of_ascending`).
-/

namespace AvroRegistry.Sorting

variable {α ε : Type} {less : Less α ε}

/-! ## Runs -/

theorem insertAll_ordered {sorted all : Array α} {values : List α}
    (ordered : sorted.toList.IsChain (Precedes less))
    (ok : insertAll less sorted values = .ok all) : all.toList.IsChain (Precedes less) := by
  induction values generalizing sorted with
  | nil =>
    cases ok
    exact ordered
  | cons v rest ih =>
    rw [insertAll] at ok
    split at ok
    · cases ok
    · next i found =>
      refine ih ?_ ok
      have fits := (bisect_boundary (Nat.zero_le _) found).fits (tells_isBefore v sorted.toList)
      refine (ordered.take i).append ((ordered.drop i).cons fits.behind) fun x front y mem => ?_
      cases mem
      exact fits.front x front

/-- In a run each value compares with the one in front of it in the same way. -/
theorem runLength_isChain {descending : Bool} {last : α} {values : List α} {n : Nat}
    (ok : runLength less descending last values = .ok n) :
    (last :: values.take n).IsChain fun x y => less y x = .ok descending := by
  induction values generalizing last n with
  | nil =>
    rw [List.take_nil]
    exact .singleton _
  | cons v rest ih =>
    rw [runLength] at ok
    split at ok
    · cases ok
    · next b told =>
      split at ok
      · next same =>
        obtain ⟨n, counted, rfl⟩ := mapped_eq_ok ok
        subst same
        exact List.isChain_cons_cons.2 ⟨told, ih counted⟩
      · cases ok
        exact .singleton _

theorem firstRun_ordered {values run rest : List α} (ok : firstRun less values = .ok (run, rest)) :
    run.IsChain (Precedes less) := by
  unfold firstRun at ok
  split at ok
  · cases ok
    exact .nil
  · cases ok
    exact .singleton _
  · next v w values =>
    obtain ⟨descending, told, ok⟩ := bind_eq_ok.1 ok
    obtain ⟨n, counted, ok⟩ := bind_eq_ok.1 ok
    cases ok
    have chain :
        ((v :: w :: values).take (2 + n)).IsChain fun x y => less y x = .ok descending := by
      rw [Nat.add_comm]
      exact List.isChain_cons_cons.2 ⟨told, runLength_isChain counted⟩
    cases descending with
    | true => exact List.isChain_reverse.2 (chain.imp fun x y => .inl)
    | false => exact chain.imp fun x y => .inr

theorem nextRun_ordered {shortest : Nat} {values run rest : List α}
    (ok : nextRun less shortest values = .ok (run, rest)) : run.IsChain (Precedes less) := by
  unfold nextRun at ok
  obtain ⟨⟨first, left⟩, cut, ok⟩ := bind_eq_ok.1 ok
  obtain ⟨extended, inserted, ok⟩ := bind_eq_ok.1 ok
  cases ok
  exact insertAll_ordered (firstRun_ordered cut) inserted

/-! ## The stack of runs -/

theorem pendingMerge_ordered {left right merged : Pending α} {patience patience' : Nat}
    (leftOrdered : left.values.IsChain (Precedes less))
    (rightOrdered : right.values.IsChain (Precedes less))
    (ok : left.merge less right patience = .ok (merged, patience')) :
    merged.values.IsChain (Precedes less) := by
  unfold Pending.merge at ok
  obtain ⟨⟨values, patience''⟩, made, ok⟩ := bind_eq_ok.1 ok
  cases ok
  exact mergeRuns_ordered leftOrdered rightOrdered made

/-- Whether the runs of a stack are in order. -/
def AllOrdered (less : Less α ε) (stack : List (Pending α)) : Prop :=
  ∀ run ∈ stack, run.values.IsChain (Precedes less)

theorem allOrdered_cons {run : Pending α} {stack : List (Pending α)} :
    AllOrdered less (run :: stack) ↔
      run.values.IsChain (Precedes less) ∧ AllOrdered less stack := List.forall_mem_cons

theorem settleAbove_ordered {depth : Nat} {settled : List (Pending α)} {patience' : Nat} :
    ∀ {stack : List (Pending α)} {patience : Nat}, AllOrdered less stack →
      settleAbove less depth stack patience = .ok (settled, patience') → AllOrdered less settled
  | [], _, ordered, ok => by
    rw [settleAbove] at ok
    cases ok
    exact ordered
  | [top], _, ordered, ok => by
    rw [settleAbove] at ok
    cases ok
    exact allOrdered_cons.2 ⟨(allOrdered_cons.1 ordered).1, (allOrdered_cons.1 ordered).2⟩
  | top :: below :: rest, _, ordered, ok => by
    obtain ⟨topOrdered, ordered⟩ := allOrdered_cons.1 ordered
    rw [settleAbove] at ok
    split at ok
    · obtain ⟨⟨merged, patience⟩, made, ok⟩ := bind_eq_ok.1 ok
      obtain ⟨belowOrdered, ordered⟩ := allOrdered_cons.1 ordered
      have one := pendingMerge_ordered belowOrdered topOrdered made
      exact settleAbove_ordered (allOrdered_cons.2 ⟨one, ordered⟩) ok
    · cases ok
      exact allOrdered_cons.2 ⟨topOrdered, ordered⟩
termination_by stack => stack.length

theorem pushRun_ordered {whole : Nat} {run : List α} {stack settled : List (Pending α)}
    {patience patience' : Nat} (runOrdered : run.IsChain (Precedes less))
    (ordered : AllOrdered less stack)
    (ok : pushRun less whole run stack patience = .ok (settled, patience')) :
    AllOrdered less settled := by
  unfold pushRun at ok
  split at ok
  · cases ok
    exact allOrdered_cons.2 ⟨runOrdered, ordered⟩
  · obtain ⟨⟨below, patience⟩, settles, ok⟩ := bind_eq_ok.1 ok
    cases ok
    exact allOrdered_cons.2 ⟨runOrdered, settleAbove_ordered ordered settles⟩

theorem collapse_ordered {sorted : List α} :
    ∀ {stack : List (Pending α)} {patience : Nat}, AllOrdered less stack →
      collapse less stack patience = .ok sorted → sorted.IsChain (Precedes less)
  | [], _, _, ok => by
    rw [collapse] at ok
    cases ok
    exact .nil
  | [top], _, ordered, ok => by
    rw [collapse] at ok
    cases ok
    exact (allOrdered_cons.1 ordered).1
  | [top, second], _, ordered, ok => by
    obtain ⟨topOrdered, ordered⟩ := allOrdered_cons.1 ordered
    rw [collapse] at ok
    obtain ⟨⟨merged, patience⟩, made, ok⟩ := bind_eq_ok.1 ok
    cases ok
    exact pendingMerge_ordered (allOrdered_cons.1 ordered).1 topOrdered made
  | top :: second :: third :: rest, _, ordered, ok => by
    obtain ⟨topOrdered, ordered⟩ := allOrdered_cons.1 ordered
    obtain ⟨secondOrdered, ordered⟩ := allOrdered_cons.1 ordered
    rw [collapse] at ok
    split at ok
    · obtain ⟨⟨merged, patience⟩, made, ok⟩ := bind_eq_ok.1 ok
      obtain ⟨thirdOrdered, ordered⟩ := allOrdered_cons.1 ordered
      have one := pendingMerge_ordered thirdOrdered secondOrdered made
      exact collapse_ordered (allOrdered_cons.2 ⟨topOrdered, allOrdered_cons.2 ⟨one, ordered⟩⟩) ok
    · obtain ⟨⟨merged, patience⟩, made, ok⟩ := bind_eq_ok.1 ok
      have one := pendingMerge_ordered secondOrdered topOrdered made
      exact collapse_ordered (allOrdered_cons.2 ⟨one, ordered⟩) ok
termination_by stack => stack.length

theorem sortRuns_ordered {whole fuel patience : Nat} {values sorted : List α}
    {stack : List (Pending α)} (ordered : AllOrdered less stack)
    (ok : sortRuns less whole fuel values stack patience = .ok sorted) :
    sorted.IsChain (Precedes less) := by
  fun_induction sortRuns less whole fuel values stack patience with
  | case1 _ _ _ _ _ ih =>
    obtain ⟨⟨run, left⟩, cut, ok⟩ := bind_eq_ok.1 ok
    obtain ⟨⟨settled, patience⟩, pushed, ok⟩ := bind_eq_ok.1 ok
    exact ih _ _ _ (pushRun_ordered (nextRun_ordered cut) ordered pushed) ok
  | case2 => exact collapse_ordered ordered ok

/-- In a sorted list each value has been found not to come before the one in front of it, or that
one to come before it. -/
theorem sortBy_precedes {values sorted : List α} (ok : sortBy less values = .ok sorted) :
    sorted.IsChain (Precedes less) :=
  sortRuns_ordered (List.forall_mem_nil _) ok

/-- Where of two values at most one comes before the other, no value of a sorted list comes before
the one in front of it. -/
theorem sortBy_ascending {values sorted : List α}
    (asymm : ∀ x ∈ values, ∀ y ∈ values, less x y = .ok true → less y x = .ok false)
    (ok : sortBy less values = .ok sorted) :
    sorted.IsChain fun x y => less y x = .ok false := by
  have mem : ∀ x ∈ sorted, x ∈ values := fun x => (sortBy_perm ok).mem_iff.1
  refine (sortBy_precedes ok).imp_of_mem_imp fun x y hx hy precedes => ?_
  rcases precedes with before | notAfter
  · exact asymm x (mem x hx) y (mem y hy) before
  · exact notAfter

/-! ## Lists that are one run -/

theorem runLength_of_ascending {last : α} {values : List α}
    (chain : (last :: values).IsChain fun x y => less y x = .ok false) :
    runLength less false last values = .ok values.length := by
  induction values generalizing last with
  | nil => rfl
  | cons v rest ih =>
    obtain ⟨told, chain⟩ := List.isChain_cons_cons.1 chain
    rw [runLength, told]
    dsimp only
    rw [if_pos rfl, ih chain]
    rfl

theorem firstRun_of_ascending {values : List α}
    (chain : values.IsChain fun x y => less y x = .ok false) :
    firstRun less values = .ok (values, []) := by
  unfold firstRun
  split
  · rfl
  · rfl
  · next v w rest =>
    obtain ⟨told, chain⟩ := List.isChain_cons_cons.1 chain
    have all : (v :: w :: rest).length ≤ 2 + rest.length := by
      rw [List.length_cons, List.length_cons]
      omega
    refine bind_eq_ok.2 ⟨false, told, bind_eq_ok.2 ⟨_, runLength_of_ascending chain, ?_⟩⟩
    dsimp only
    rw [List.take_of_length_le all, List.drop_of_length_le all]
    rfl

theorem sortRuns_nil (whole fuel : Nat) (stack : List (Pending α)) (patience : Nat) :
    sortRuns less whole fuel [] stack patience = collapse less stack patience := by
  rw [sortRuns]
  intro fuel v rest _ some
  cases some

/-- A list in which no value comes before the one in front of it is sorted to itself. -/
theorem sortBy_of_ascending {values : List α}
    (chain : values.IsChain fun x y => less y x = .ok false) :
    sortBy less values = .ok values := by
  cases values with
  | nil =>
    unfold sortBy
    rw [sortRuns_nil, collapse]
  | cons v rest =>
    have run : nextRun less (shortestRun false (v :: rest).length) (v :: rest) =
        .ok (v :: rest, []) := by
      refine bind_eq_ok.2 ⟨_, firstRun_of_ascending chain, ?_⟩
      dsimp only
      rw [List.take_nil, List.drop_nil]
      rfl
    unfold sortBy
    rw [List.length_cons, sortRuns]
    refine bind_eq_ok.2 ⟨_, run, ?_⟩
    dsimp only [pushRun]
    refine bind_eq_ok.2 ⟨_, rfl, ?_⟩
    rw [sortRuns_nil, collapse]

end AvroRegistry.Sorting
