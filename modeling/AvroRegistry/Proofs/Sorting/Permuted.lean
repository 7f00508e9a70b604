import AvroRegistry.Json.Order
import AvroRegistry.Sorting.Runs
import Mathlib.Data.List.Basic

/-!
# Sorting keeps the values

Whatever the comparison says, and in whatever order it is asked, sorting a list gives the same
values in some order, or fails with the comparison (`sortBy_perm`). The values on their way are
those that are merged and those still in the two runs (`Merging.contents`); a step that goes on
keeps them, and a step that ends gives all of them (`Keeps`). Texts are in the same order in the end
in whatever order they come (`sorted_texts_perm`).
-/

namespace AvroRegistry.Sorting

variable {α β γ ε : Type} {less : Less α ε}

theorem perm_take_drop (n : Nat) (xs : List α) : (xs.take n ++ xs.drop n).Perm xs :=
  .of_eq (List.take_append_drop n xs)

/-! ## Merging -/

namespace Merging

/-- The values of two runs on their way. -/
def contents (m : Merging α) : List α := m.merged ++ (m.left ++ m.right)

theorem contents_takeLeft (m : Merging α) (n : Nat) : (m.takeLeft n).contents.Perm m.contents := by
  have front : ((m.left.take n).reverse ++ m.merged).Perm (m.merged ++ m.left.take n) :=
    ((List.reverse_perm _).append_right _).trans List.perm_append_comm
  show ((m.left.take n).reverse ++ m.merged ++ (m.left.drop n ++ m.right)).Perm m.contents
  refine (front.append_right _).trans (.of_eq ?_)
  rw [List.append_assoc, ← List.append_assoc (m.left.take n), List.take_append_drop, contents]

theorem contents_takeRight (m : Merging α) (n : Nat) :
    (m.takeRight n).contents.Perm m.contents := by
  have front : ((m.right.take n).reverse ++ m.merged).Perm (m.merged ++ m.right.take n) :=
    ((List.reverse_perm _).append_right _).trans List.perm_append_comm
  have middle : (m.right.take n ++ (m.left ++ m.right.drop n)).Perm (m.left ++ m.right) := by
    rw [← List.append_assoc]
    refine (List.perm_append_comm.append_right _).trans (.of_eq ?_)
    rw [List.append_assoc, List.take_append_drop]
  show ((m.right.take n).reverse ++ m.merged ++ (m.left ++ m.right.drop n)).Perm m.contents
  refine (front.append_right _).trans ?_
  rw [List.append_assoc]
  exact middle.append_left _

/-- What is still to follow is what is in the two runs. -/
theorem remainder?_perm {m : Merging α} {remainder : List α}
    (rest : m.remainder? = some remainder) : remainder.Perm (m.left ++ m.right) := by
  obtain ⟨upward, left, right, merged, patience⟩ := m
  unfold remainder? at rest
  dsimp only at rest ⊢
  split at rest
  · split at rest
    · cases rest
      simp
    · cases rest
      exact .refl _
    · cases rest
      exact List.perm_append_comm
    · cases rest
  · split at rest
    · cases rest
      exact .refl _
    · cases rest
      simp
    · cases rest
      exact .refl _
    · cases rest

theorem result_perm (m : Merging α) {remainder : List α}
    (rest : remainder.Perm (m.left ++ m.right)) : (m.result remainder).Perm m.contents := by
  have all : (m.merged.reverse ++ remainder).Perm m.contents :=
    (List.reverse_perm _).append rest
  unfold result
  dsimp only
  split
  · exact all
  · exact (List.reverse_perm _).trans all

end Merging

/-- Whether a step of merging keeps some values: going on it holds them, ended it gives them. -/
def Keeps (held : β → List α) (values : List α) : Progress α ε β → Prop
  | .ok b => (held b).Perm values
  | .error (.finished sorted _) => sorted.Perm values
  | .error (.failed _) => True

theorem Keeps.bind {held : β → List α} {held' : γ → List α} {values : List α}
    {step : Progress α ε β} {next : β → Progress α ε γ} (first : Keeps held values step)
    (second : ∀ b, (held b).Perm values → Keeps held' values (next b)) :
    Keeps held' values (step >>= next) := by
  cases step with
  | ok b => exact second b first
  | error ending =>
    cases ending with
    | finished sorted patience => exact first
    | failed e => trivial

theorem keeps_compared (values : List α) (result : Except ε β) :
    Keeps (fun _ => values) values (compared result) := by
  cases result with
  | ok b => exact .refl _
  | error e => trivial

variable {m : Merging α} {values : List α}

theorem keeps_proceed (kept : m.contents.Perm values) :
    Keeps (ε := ε) Merging.contents values (proceed m) := by
  unfold proceed
  split
  · next rest => exact (m.result_perm (Merging.remainder?_perm rest)).trans kept
  · exact kept

theorem keeps_gallopOnce (kept : m.contents.Perm values) :
    Keeps (fun r : Merging α × Bool => r.1.contents) values (gallopOnce less m) := by
  unfold gallopOnce
  split
  · exact kept
  · refine (keeps_compared values _).bind fun lefts _ => ?_
    refine (keeps_proceed ((m.contents_takeLeft lefts).trans kept)).bind fun n kept => ?_
    refine (keeps_proceed ((n.contents_takeRight 1).trans kept)).bind fun n kept => ?_
    split
    · exact kept
    · refine (keeps_compared values _).bind fun rights _ => ?_
      refine (keeps_proceed ((n.contents_takeRight rights).trans kept)).bind fun n kept => ?_
      exact (keeps_proceed ((n.contents_takeLeft 1).trans kept)).bind fun n kept => kept

theorem keeps_gallopOn (fuel : Nat) (kept : m.contents.Perm values) :
    Keeps Merging.contents values (gallopOn less fuel m) := by
  induction fuel generalizing m with
  | zero => exact kept
  | succ fuel ih =>
    rw [gallopOn]
    refine (keeps_gallopOnce kept).bind fun r kept => ?_
    obtain ⟨n, again⟩ := r
    split
    · next h =>
      cases h
      split
      · exact ih kept
      · exact kept

theorem keeps_mergeFrom (fuel lefts rights : Nat) (kept : m.contents.Perm values) :
    Keeps (fun _ : Unit => values) values (mergeFrom less fuel lefts rights m) := by
  induction fuel generalizing lefts rights m with
  | zero => exact (m.result_perm (.refl _)).trans kept
  | succ fuel ih =>
    rw [mergeFrom]
    split
    · refine (keeps_compared values _).bind fun isLess _ => ?_
      split
      next lefts rights taken took =>
        have kept : taken.contents.Perm values := by
          split at took
          · cases took
            exact (m.contents_takeLeft 1).trans kept
          · cases took
            exact (m.contents_takeRight 1).trans kept
        refine (keeps_proceed kept).bind fun n kept => ?_
        split
        · exact (keeps_gallopOn fuel kept).bind fun n kept => ih 0 0 kept
        · exact ih lefts rights kept
    · exact (m.result_perm (.refl _)).trans kept

theorem keeps_merging (less : Less α ε) (fuel : Nat) (kept : m.contents.Perm values) :
    Keeps (fun _ => values) values (proceed m >>= mergeFrom less fuel 0 0) :=
  (keeps_proceed kept).bind fun _ kept => keeps_mergeFrom fuel 0 0 kept

/-- Merging two runs keeps their values. -/
theorem mergeTrimmed_perm {left right sorted : List α} {patience patience' : Nat}
    (ok : mergeTrimmed less left right patience = .ok (sorted, patience')) :
    sorted.Perm (left ++ right) := by
  unfold mergeTrimmed at ok
  dsimp only at ok
  split at ok
  · next ended =>
    cases ok
    split at ended
    · have kept := keeps_merging less (left.length + right.length)
        (Merging.contents_takeRight ⟨true, left, right, [], patience⟩ 1)
      rw [ended] at kept
      exact kept
    · have kept := keeps_merging less (left.length + right.length)
        (Merging.contents_takeLeft ⟨false, left.reverse, right.reverse, [], patience⟩ 1)
      rw [ended] at kept
      exact kept.trans ((List.reverse_perm left).append (List.reverse_perm right))
  · cases ok
  · cases ok
    exact .refl _

/-! ## Sequences of checks that may fail -/

theorem bind_eq_ok {x : Except ε β} {f : β → Except ε γ} {c : γ} :
    (x >>= f) = .ok c ↔ ∃ b, x = .ok b ∧ f b = .ok c := by
  cases x <;> simp [bind, Except.bind]

/-! ## Runs -/

theorem mergeRuns_perm {left right sorted : List α} {patience patience' : Nat}
    (ok : mergeRuns less left right patience = .ok (sorted, patience')) :
    sorted.Perm (left ++ right) := by
  unfold mergeRuns at ok
  split at ok
  · cases ok
    simp
  · next first rest =>
    obtain ⟨start, -, ok⟩ := bind_eq_ok.1 ok
    split at ok
    · cases ok
      exact .refl _
    obtain ⟨stop, -, ok⟩ := bind_eq_ok.1 ok
    split at ok
    · cases ok
      exact .refl _
    obtain ⟨⟨values, patience''⟩, merged, ok⟩ := bind_eq_ok.1 ok
    cases ok
    -- Between the two ends that stay there is what was merged.
    have inner := ((mergeTrimmed_perm merged).append_left (left.take start)).append_right
      ((first :: rest).drop stop)
    refine inner.trans (.of_eq ?_)
    rw [← List.append_assoc, List.take_append_drop, List.append_assoc, List.take_append_drop]

theorem insertAll_perm {sorted : Array α} {values : List α} {all : Array α}
    (ok : insertAll less sorted values = .ok all) :
    all.toList.Perm (sorted.toList ++ values) := by
  induction values generalizing sorted with
  | nil =>
    cases ok
    simp
  | cons v rest ih =>
    rw [insertAll] at ok
    split at ok
    · cases ok
    · next i found =>
      refine (ih ok).trans ?_
      have placed : (sorted.toList.take i ++ v :: sorted.toList.drop i).Perm
          (sorted.toList ++ [v]) := by
        refine (List.perm_middle.trans (List.perm_append_singleton v _).symm).trans (.of_eq ?_)
        rw [List.take_append_drop]
      simpa using placed.append_right rest

theorem firstRun_perm {values run rest : List α}
    (ok : firstRun less values = .ok (run, rest)) : (run ++ rest).Perm values := by
  unfold firstRun at ok
  split at ok
  · cases ok
    exact .refl _
  · cases ok
    exact .refl _
  · obtain ⟨descending, -, ok⟩ := bind_eq_ok.1 ok
    obtain ⟨n, -, ok⟩ := bind_eq_ok.1 ok
    cases ok
    refine List.Perm.trans ?_ (perm_take_drop (2 + n) _)
    apply List.Perm.append_right
    split
    · exact List.reverse_perm _
    · exact .refl _

theorem firstRun_ne_nil {v : α} {values run rest : List α}
    (ok : firstRun less (v :: values) = .ok (run, rest)) : run ≠ [] := by
  cases values with
  | nil =>
    cases ok
    exact List.cons_ne_nil _ _
  | cons w values =>
    obtain ⟨descending, -, ok⟩ := bind_eq_ok.1 ok
    obtain ⟨n, -, ok⟩ := bind_eq_ok.1 ok
    cases ok
    rw [Nat.add_comm 2 n]
    split <;> simp

theorem nextRun_perm {shortest : Nat} {values run rest : List α}
    (ok : nextRun less shortest values = .ok (run, rest)) : (run ++ rest).Perm values := by
  unfold nextRun at ok
  obtain ⟨⟨first, left⟩, cut, ok⟩ := bind_eq_ok.1 ok
  obtain ⟨extended, inserted, ok⟩ := bind_eq_ok.1 ok
  cases ok
  have whole := (insertAll_perm inserted).append_right (left.drop (shortest - first.length))
  refine whole.trans ?_
  rw [List.append_assoc, List.take_append_drop]
  exact firstRun_perm cut

/-- The next run is not empty, so that each one leaves fewer values. -/
theorem nextRun_shorter {shortest : Nat} {v : α} {values run rest : List α}
    (ok : nextRun less shortest (v :: values) = .ok (run, rest)) : rest.length ≤ values.length := by
  have whole := (nextRun_perm ok).length_eq
  unfold nextRun at ok
  obtain ⟨⟨first, left⟩, cut, ok⟩ := bind_eq_ok.1 ok
  obtain ⟨extended, inserted, ok⟩ := bind_eq_ok.1 ok
  cases ok
  have count := (insertAll_perm inserted).length_eq
  have some := List.length_pos_iff.2 (firstRun_ne_nil cut)
  simp only [List.length_append, List.length_cons] at whole count
  omega

/-! ## The stack of runs -/

/-- The values of the runs of a stack. -/
def waiting (stack : List (Pending α)) : List α := stack.flatMap Pending.values

theorem pendingMerge_perm {left right merged : Pending α} {patience patience' : Nat}
    (ok : left.merge less right patience = .ok (merged, patience')) :
    merged.values.Perm (left.values ++ right.values) := by
  unfold Pending.merge at ok
  obtain ⟨⟨values, patience''⟩, made, ok⟩ := bind_eq_ok.1 ok
  cases ok
  exact mergeRuns_perm made

theorem settleAbove_perm {depth : Nat} {settled : List (Pending α)} {patience' : Nat} :
    ∀ {stack : List (Pending α)} {patience : Nat},
      settleAbove less depth stack patience = .ok (settled, patience') →
        (waiting settled).Perm (waiting stack)
  | [], _, ok => by
    rw [settleAbove] at ok
    cases ok
    exact .refl _
  | [top], _, ok => by
    rw [settleAbove] at ok
    cases ok
    exact .refl _
  | top :: below :: rest, _, ok => by
    rw [settleAbove] at ok
    split at ok
    · obtain ⟨⟨merged, patience⟩, made, ok⟩ := bind_eq_ok.1 ok
      refine (settleAbove_perm ok).trans ?_
      have both := (pendingMerge_perm made).trans List.perm_append_comm
      simpa [waiting] using both.append_right (waiting rest)
    · cases ok
      exact .refl _
termination_by stack => stack.length

theorem pushRun_perm {whole : Nat} {run : List α} {stack settled : List (Pending α)}
    {patience patience' : Nat}
    (ok : pushRun less whole run stack patience = .ok (settled, patience')) :
    (waiting settled).Perm (run ++ waiting stack) := by
  unfold pushRun at ok
  split at ok
  · cases ok
    exact .refl _
  · obtain ⟨⟨below, patience⟩, settles, ok⟩ := bind_eq_ok.1 ok
    cases ok
    exact (settleAbove_perm settles).append_left run

theorem collapse_perm {sorted : List α} :
    ∀ {stack : List (Pending α)} {patience : Nat},
      collapse less stack patience = .ok sorted → sorted.Perm (waiting stack)
  | [], _, ok => by
    rw [collapse] at ok
    cases ok
    exact .refl _
  | [top], _, ok => by
    rw [collapse] at ok
    cases ok
    simp [waiting]
  | [top, second], _, ok => by
    rw [collapse] at ok
    obtain ⟨⟨merged, patience⟩, made, ok⟩ := bind_eq_ok.1 ok
    cases ok
    have both := (pendingMerge_perm made).trans List.perm_append_comm
    simpa [waiting] using both
  | top :: second :: third :: rest, _, ok => by
    rw [collapse] at ok
    split at ok
    · obtain ⟨⟨merged, patience⟩, made, ok⟩ := bind_eq_ok.1 ok
      refine (collapse_perm ok).trans ?_
      have both := (pendingMerge_perm made).trans List.perm_append_comm
      simpa [waiting] using (both.append_right (waiting rest)).append_left top.values
    · obtain ⟨⟨merged, patience⟩, made, ok⟩ := bind_eq_ok.1 ok
      refine (collapse_perm ok).trans ?_
      have both := (pendingMerge_perm made).trans List.perm_append_comm
      simpa [waiting] using both.append_right (waiting (third :: rest))
termination_by stack => stack.length

theorem sortRuns_perm {whole fuel patience : Nat} {values sorted : List α}
    {stack : List (Pending α)} (enough : values.length ≤ fuel)
    (ok : sortRuns less whole fuel values stack patience = .ok sorted) :
    sorted.Perm (values ++ waiting stack) := by
  induction fuel generalizing values stack patience with
  | zero =>
    obtain rfl := List.length_eq_zero_iff.1 (Nat.le_zero.1 enough)
    rw [sortRuns] at ok
    · exact collapse_perm ok
    all_goals nofun
  | succ fuel ih =>
    cases values with
    | nil =>
      rw [sortRuns] at ok
      · exact collapse_perm ok
      all_goals nofun
    | cons v rest =>
      rw [sortRuns] at ok
      obtain ⟨⟨run, left⟩, cut, ok⟩ := bind_eq_ok.1 ok
      obtain ⟨⟨settled, patience⟩, pushed, ok⟩ := bind_eq_ok.1 ok
      have fewer := nextRun_shorter cut
      rw [List.length_cons] at enough
      refine (ih (by omega) ok).trans ?_
      refine ((pushRun_perm pushed).append_left left).trans ?_
      rw [← List.append_assoc]
      exact (List.perm_append_comm.trans (nextRun_perm cut)).append_right (waiting stack)

/-- Sorting gives the same values in some order. -/
theorem sortBy_perm {values sorted : List α} (ok : sortBy less values = .ok sorted) :
    sorted.Perm values := by
  simpa [waiting] using sortRuns_perm (Nat.le_refl _) ok

theorem sortBy_singleton (less : Less α ε) (v : α) : sortBy less [v] = .ok [v] := by
  have short : shortestRun false 1 = 1 := by
    rw [shortestRun, if_pos (by decide)]
    rfl
  have run : nextRun less 1 [v] = .ok ([v], []) := rfl
  unfold sortBy
  rw [List.length_singleton, sortRuns, short, run]
  show collapse less [{ start := 0, values := [v] }] worthwhile = _
  rw [collapse]

/-! ## Sorting by a text -/

/-- What is sorted by a text of each value is in order. -/
theorem pairwise_mergeSort_text {α : Type} (text : α → String) (values : List α) :
    (values.mergeSort fun a b => decide (text a ≤ text b)).Pairwise fun a b => text a ≤ text b := by
  refine (List.pairwise_mergeSort ?_ ?_ values).imp fun le => of_decide_eq_true le
  · intro a b c le le'
    simp only [decide_eq_true_eq] at le le' ⊢
    exact String.le_trans le le'
  · intro a b
    simpa using String.le_total (text a) (text b)

end AvroRegistry.Sorting

namespace AvroRegistry.Json

theorem texts?_eq_some {values : List Json} {texts : List String}
    (all : texts? values = some texts) : values = texts.map str := by
  induction values generalizing texts with
  | nil =>
    cases all
    rfl
  | cons v rest ih =>
    cases v with
    | str s =>
      obtain ⟨others, found, rfl⟩ := Option.map_eq_some_iff.1 all
      rw [ih found, List.map_cons]
    | _ => cases all

/-- Sorted values are the same values in some order. -/
theorem sorted_perm {values out : List Json} (ok : sorted values = .ok out) : out.Perm values := by
  unfold sorted at ok
  split at ok
  · next texts all =>
    cases ok
    rw [texts?_eq_some all]
    exact (List.mergeSort_perm _ _).map _
  · exact Sorting.sortBy_perm ok

theorem sortTexts_perm {texts texts' : List String} (perm : texts.Perm texts') :
    sortTexts texts = sortTexts texts' := by
  have same : (sortTexts texts).Perm (sortTexts texts') :=
    ((List.mergeSort_perm _ _).trans perm).trans (List.mergeSort_perm _ _).symm
  exact same.eq_of_pairwise (fun _ _ _ _ => String.le_antisymm)
    (Sorting.pairwise_mergeSort_text id texts) (Sorting.pairwise_mergeSort_text id texts')

theorem texts?_map_str (texts : List String) : texts? (texts.map str) = some texts := by
  induction texts with
  | nil => rfl
  | cons t rest ih => rw [List.map_cons, texts?, ih, Option.map_some]

theorem sorted_texts (texts : List String) :
    sorted (texts.map str) = .ok ((sortTexts texts).map str) := by
  unfold sorted
  rw [texts?_map_str]

/-- A single value is in order, whatever it is. -/
theorem sorted_singleton (v : Json) : sorted [v] = .ok [v] := by
  cases v with
  | str s =>
    rw [show [str s] = [s].map str from rfl, sorted_texts, sortTexts, List.mergeSort_singleton]
  | _ => exact Sorting.sortBy_singleton less _

/-- Texts are sorted the same way in whatever order they come. -/
theorem sorted_texts_perm {texts texts' : List String} (perm : texts.Perm texts') :
    sorted (texts.map str) = sorted (texts'.map str) := by
  rw [sorted_texts, sorted_texts, sortTexts_perm perm]

end AvroRegistry.Json
