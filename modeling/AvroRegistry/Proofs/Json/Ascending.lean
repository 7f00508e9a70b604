import AvroRegistry.Proofs.Json.Reordered
import AvroRegistry.Proofs.Json.Sameness
import AvroRegistry.Proofs.Sorting.Settled

/-!
# Values in ascending order

Of two values at most one comes before the other (`less_asymm`), and which one does not depend on
the order of members (`less_arranged`), as long as no key occurs twice in an object. So a list of
values that was sorted is sorted to itself, also with the members of its values in another order
(`sorted_arranged`); numbers that are no numbers stand wherever they ended up.
-/

namespace AvroRegistry.Json

/-! ## Comparing -/

theorem lt_asymm {x y : Binary64} (before : x.lt y = true) : y.lt x = false := by
  cases x with
  | finite s m e =>
    cases y with
    | finite s' m' e' => exact decide_eq_false (Int.lt_asymm (of_decide_eq_true before))
    | infinite s' => exact Bool.not_eq_true' s' ▸ before
    | nan => rfl
  | infinite s =>
    cases y with
    | finite s' m' e' => exact congrArg (!·) before
    | infinite s' => cases s <;> cases s' <;> first | rfl | cases before
    | nan => rfl
  | nan => cases before

theorem intLt_of_ltInt {x : Binary64} {n : Int} (before : x.ltInt n = true) :
    Binary64.intLt n x = false := by
  cases x with
  | finite s m e => exact decide_eq_false (Int.lt_asymm (of_decide_eq_true before))
  | infinite s => exact congrArg (!·) before
  | nan => rfl

theorem ltInt_of_intLt {x : Binary64} {n : Int} (before : Binary64.intLt n x = true) :
    x.ltInt n = false := by
  cases x with
  | finite s m e => exact decide_eq_false (Int.lt_asymm (of_decide_eq_true before))
  | infinite s => exact Bool.not_eq_true' s ▸ before
  | nan => rfl

theorem lessScalar_asymm {v w : Json} (before : lessScalar v w = .ok true) :
    lessScalar w v = .ok false := by
  cases v with
  | float x =>
    cases w with
    | float y => exact congrArg Except.ok (lt_asymm (Except.ok.inj before))
    | bool | int => exact congrArg Except.ok (intLt_of_ltInt (Except.ok.inj before))
    | _ => cases before
  | bool | int =>
    cases w with
    | float y => exact congrArg Except.ok (ltInt_of_intLt (Except.ok.inj before))
    | bool | int =>
      have lt := of_decide_eq_true (Except.ok.inj before)
      exact congrArg Except.ok (decide_eq_false (Int.lt_asymm lt))
    | _ => cases before
  | str s =>
    cases w with
    | str t =>
      have lt := of_decide_eq_true (Except.ok.inj before)
      exact congrArg Except.ok (decide_eq_false (String.lt_asymm lt))
    | _ => cases before
  | _ => cases w <;> cases before

/-- Arrays compare at their first difference, so they compare one way if their items do. -/
theorem lessItems_asymm {xs : List Json}
    (each : ∀ v ∈ xs, ∀ w, Everywhere Keyed w → less v w = .ok true → less w v = .ok false) :
    ∀ {ys : List Json}, (∀ v ∈ xs, Everywhere Keyed v) → (∀ w ∈ ys, Everywhere Keyed w) →
      lessItems xs ys = .ok true → lessItems ys xs = .ok false := by
  induction xs with
  | nil =>
    intro ys _ _ before
    cases ys with
    | nil => cases before
    | cons w ys => rw [lessItems]
  | cons v xs ih =>
    intro ys keyedXs keyedYs before
    cases ys with
    | nil =>
      rw [lessItems] at before
      cases before
    | cons w ys =>
      obtain ⟨here, later⟩ := List.forall_mem_cons.1 each
      obtain ⟨keyedV, keyedXs⟩ := List.forall_mem_cons.1 keyedXs
      obtain ⟨keyedW, keyedYs⟩ := List.forall_mem_cons.1 keyedYs
      have alike : same w v = same v w := by
        rw [Bool.eq_iff_iff]
        exact ⟨same_symm keyedW, same_symm keyedV⟩
      rw [lessItems] at before ⊢
      rw [alike]
      split at before
      · next same =>
        rw [if_pos same]
        exact ih later keyedXs keyedYs before
      · next other =>
        rw [if_neg other]
        exact here w keyedW before

/-- Only two arrays compare by their items. -/
theorem less_of_not_arr {v : Json} (other : ∀ xs, v ≠ arr xs) (w : Json) :
    less v w = lessScalar v w ∧ less w v = lessScalar w v := by
  cases v with
  | arr xs => exact absurd rfl (other xs)
  | _ => cases w <;> exact ⟨rfl, rfl⟩

/-- Of two values at most one comes before the other. -/
theorem less_asymm (v : Json) : ∀ w, Everywhere Keyed v → Everywhere Keyed w →
    less v w = .ok true → less w v = .ok false := by
  induction v using induct with
  | step v ih =>
    intro w keyedV keyedW before
    by_cases array : ∃ xs, v = arr xs
    · obtain ⟨xs, rfl⟩ := array
      cases w with
      | arr ys =>
        have keyedXs := ((everywhere_arr xs).1 keyedV).2
        have keyedYs := ((everywhere_arr ys).1 keyedW).2
        rw [less] at before ⊢
        exact lessItems_asymm (fun v mem w keyed => ih v (sizeOf_item mem) w (keyedXs v mem) keyed)
          keyedXs keyedYs before
      | _ => cases before
    · obtain ⟨one, two⟩ := less_of_not_arr (fun xs is => array ⟨xs, is⟩) w
      rw [one] at before
      rw [two]
      exact lessScalar_asymm before

/-! ## The order of members -/

theorem lessItems_arranged (l l' : Layout) {xs : List Json}
    (each : ∀ v ∈ xs, ∀ w, Everywhere Plain w →
      less (arranged l v) (arranged l' w) = less v w) :
    ∀ {ys : List Json}, (∀ v ∈ xs, Everywhere Plain v) → (∀ w ∈ ys, Everywhere Plain w) →
      lessItems (xs.map (arranged l)) (ys.map (arranged l')) = lessItems xs ys := by
  induction xs with
  | nil =>
    intro ys _ _
    cases ys <;> rfl
  | cons v xs ih =>
    intro ys plainXs plainYs
    cases ys with
    | nil => rfl
    | cons w ys =>
      obtain ⟨here, later⟩ := List.forall_mem_cons.1 each
      obtain ⟨plainV, plainXs⟩ := List.forall_mem_cons.1 plainXs
      obtain ⟨plainW, plainYs⟩ := List.forall_mem_cons.1 plainYs
      rw [List.map_cons, List.map_cons, lessItems, lessItems, same_arranged l l' v w plainV plainW,
        ih later plainXs plainYs, here w plainW]

/-- Which of two values comes first does not depend on the order of members. -/
theorem less_arranged (l l' : Layout) (v : Json) : ∀ w, Everywhere Plain v → Everywhere Plain w →
    less (arranged l v) (arranged l' w) = less v w := by
  induction v using induct with
  | step v ih =>
    intro w plainV plainW
    cases v with
    | arr xs =>
      cases w with
      | arr ys =>
        have plainXs := ((everywhere_arr xs).1 plainV).2
        have plainYs := ((everywhere_arr ys).1 plainW).2
        rw [arranged_arr, arranged_arr, less, less]
        exact lessItems_arranged l l'
          (fun v mem w plain => ih v (sizeOf_item mem) w (plainXs v mem) plain) plainXs plainYs
      | _ => rfl
    | _ => cases w <;> rfl

/-! ## Sorting -/

/-- In sorted values none comes before the one in front of it. -/
theorem sorted_ascending {values out : List Json} (keyed : ∀ v ∈ values, Everywhere Keyed v)
    (ok : sorted values = .ok out) : out.IsChain fun v w => less w v = .ok false := by
  unfold sorted at ok
  split at ok
  · next texts all =>
    cases ok
    refine (List.isChain_map str).2 ?_
    refine (Sorting.pairwise_mergeSort_text id texts).isChain.imp fun s t le => ?_
    exact congrArg Except.ok (decide_eq_false (String.not_lt.2 le))
  · refine Sorting.sortBy_ascending (fun v hv w hw => ?_) ok
    exact less_asymm v w (keyed v hv) (keyed w hw)

/-- Values of which none comes before the one in front of it are sorted already. -/
theorem sorted_of_ascending {values : List Json}
    (chain : values.IsChain fun v w => less w v = .ok false) : sorted values = .ok values := by
  unfold sorted
  split
  · next texts all =>
    obtain rfl := texts?_eq_some all
    have ordered : texts.IsChain (· ≤ ·) := by
      refine ((List.isChain_map str).1 chain).imp fun s t notBefore => ?_
      exact String.not_lt.1 (of_decide_eq_false (Except.ok.inj notBefore))
    have trans : IsTrans String (· ≤ ·) := ⟨fun _ _ _ => String.le_trans⟩
    have pairs := List.isChain_iff_pairwise.1 ordered
    rw [sortTexts, List.mergeSort_of_pairwise (pairs.imp fun le => decide_eq_true le)]
  · exact Sorting.sortBy_of_ascending chain

/-- Sorted values are sorted to themselves, whatever the order of their members. -/
theorem sorted_arranged (l : Layout) {values out : List Json}
    (plain : ∀ v ∈ values, Everywhere Plain v) (ok : sorted values = .ok out) :
    sorted (out.map (arranged l)) = .ok (out.map (arranged l)) := by
  have keyed : ∀ v ∈ values, Everywhere Keyed v := fun v mem w part =>
    keyed_of_plain (plain v mem w part)
  have mem : ∀ v ∈ out, v ∈ values := fun v => (sorted_perm ok).mem_iff.1
  refine sorted_of_ascending ((List.isChain_map (arranged l)).2 ?_)
  refine (sorted_ascending keyed ok).imp_of_mem_imp fun v w hv hw notBefore => ?_
  rw [less_arranged l l w v (plain w (mem w hw)) (plain v (mem v hv)), notBefore]

end AvroRegistry.Json
