import AvroRegistry.Json.Literal
import AvroRegistry.Json.Order
import Mathlib.Logic.Basic

/-!
# Facts about JSON values

An induction over values that gives the hypothesis for every smaller value, the laws of sameness for
values that may be keys, and the fact that a value which says something is shown as something.
-/

namespace AvroRegistry.Json

/-! ## Induction -/

/-- Induction over a value: what holds of every smaller value, at whatever depth, holds of the
value. -/
@[elab_as_elim]
theorem induct {motive : Json → Prop}
    (step : ∀ v, (∀ w, sizeOf w < sizeOf v → motive w) → motive v) (v : Json) : motive v :=
  step v fun w _ => induct step w
termination_by sizeOf v

/-- An item of an array is smaller than the array. -/
theorem sizeOf_item {v : Json} {items : List Json} (mem : v ∈ items) :
    sizeOf v < sizeOf (arr items) := by
  have := List.sizeOf_lt_of_mem mem
  rw [arr.sizeOf_spec]
  omega

/-- A member value is smaller than the object. -/
theorem sizeOf_lookup {key : String} {v : Json} {members : List (String × Json)}
    (found : lookup key members = some v) : sizeOf v < sizeOf (obj members) := by
  rw [obj.sizeOf_spec]
  induction members with
  | nil => cases found
  | cons m rest ih =>
    obtain ⟨k, w⟩ := m
    rw [lookup_cons] at found
    rw [List.cons.sizeOf_spec, Prod.mk.sizeOf_spec]
    split at found
    · cases found
      omega
    · have := ih found
      omega

theorem sizeOf_member {m : String × Json} {members : List (String × Json)} (mem : m ∈ members) :
    sizeOf m.2 < sizeOf (obj members) := by
  have := List.sizeOf_lt_of_mem mem
  obtain ⟨k, v⟩ := m
  rw [obj.sizeOf_spec]
  rw [Prod.mk.sizeOf_spec] at this
  dsimp only
  omega

/-! ## Sameness -/

/-- What the comparison of two values comes to if the first one may be a key. -/
theorem same_of_isKey {v : Json} (key : v.isKey = true) (w : Json) : same v w = sameScalar v w := by
  cases v with
  | arr items => cases key
  | obj members => cases key
  | _ => cases w <;> rfl

theorem eq_refl_or_nan (x : Binary64) : (x.eq x || (x == .nan && x == .nan)) = true := by
  cases x <;> simp [Binary64.eq]

/-- A value that may be a key is the same as itself, NaN included. -/
theorem same_refl {v : Json} (key : v.isKey = true) : same v v = true := by
  rw [same_of_isKey key]
  cases v with
  | arr items => cases key
  | obj members => cases key
  | float x => exact eq_refl_or_nan x
  | null => rfl
  | bool b => simp [sameScalar, asInt?]
  | int n => simp [sameScalar, asInt?]
  | str s => simp [sameScalar]

theorem binary64_eq_comm (x y : Binary64) : x.eq y = y.eq x := by
  cases x <;> cases y <;> first | rfl | exact BEq.comm

/-- The comparison of two scalars does not depend on their order. -/
theorem sameScalar_comm (v w : Json) : sameScalar v w = sameScalar w v := by
  cases v with
  | float x =>
    cases w with
    | float y =>
      show (x.eq y || (x == .nan && y == .nan)) = (y.eq x || (y == .nan && x == .nan))
      rw [binary64_eq_comm x y, Bool.and_comm]
    | _ => rfl
  | str s =>
    cases w with
    | str t => exact BEq.comm
    | _ => rfl
  | bool b =>
    cases w with
    | bool c => exact BEq.comm
    | int n => exact BEq.comm
    | _ => rfl
  | int n =>
    cases w with
    | bool c => exact BEq.comm
    | int m => exact BEq.comm
    | _ => rfl
  | _ => cases w <;> rfl

/-- Sameness of two values that may be keys does not depend on their order. -/
theorem same_comm {v w : Json} (hv : v.isKey = true) (hw : w.isKey = true) :
    same v w = same w v := by
  rw [same_of_isKey hv, same_of_isKey hw, sameScalar_comm]

/-- A text is the same as nothing but itself. -/
theorem same_str_iff (s : String) (w : Json) : same (str s) w = true ↔ w = str s := by
  rw [same_of_isKey rfl]
  cases w with
  | str t =>
    show (s == t) = true ↔ _
    rw [beq_iff_eq, Json.str.injEq, eq_comm]
  | _ => exact iff_of_false (fun h => Bool.noConfusion h) (fun h => nomatch h)

/-- A text is found in a list exactly when it is an item of it. -/
theorem isIn_str_iff (s : String) (items : List Json) :
    (str s).isIn items = true ↔ str s ∈ items := by
  simp [isIn, List.any_eq_true, same_str_iff]

/-! ## Shown values -/

theorem positional_ne_nil (digits : List Char) (leading : Int) :
    Binary64.positional digits leading ≠ [] := by
  unfold Binary64.positional
  dsimp only
  split
  · exact List.cons_ne_nil _ _
  · split
    · exact List.append_ne_nil_of_right_ne_nil _ (List.cons_ne_nil _ _)
    · exact List.append_ne_nil_of_right_ne_nil _ (List.cons_ne_nil _ _)

theorem scientific_ne_nil (pointed : Bool) {digits : List Char} (some : digits ≠ [])
    (leading : Int) : Binary64.scientific pointed digits leading ≠ [] := by
  unfold Binary64.scientific
  split
  · exact absurd rfl some
  · exact List.cons_ne_nil _ _
  · exact List.cons_ne_nil _ _

theorem layout_ne_nil (positionally : Prop) [Decidable positionally] (pointed : Bool)
    {digits : List Char} (some : digits ≠ []) (leading : Int) :
    (if positionally then Binary64.positional digits leading
      else Binary64.scientific pointed digits leading) ≠ [] := by
  split
  · exact positional_ne_nil digits leading
  · exact scientific_ne_nil pointed some leading

/-- A number is written with at least one character if the words for infinity and NaN have
some. -/
theorem render_ne_empty {style : Binary64.NumberStyle} (infinity : style.infinity ≠ "")
    (notANumber : style.notANumber ≠ "") (x : Binary64) : x.render style ≠ "" := by
  cases x with
  | nan => exact notANumber
  | infinite negative =>
    intro empty
    exact infinity (String.append_eq_empty_iff.1 empty).2
  | finite negative mantissa exponent =>
    unfold Binary64.render
    dsimp only
    split
    · rw [ne_eq, String.ofList_eq_empty_iff]
      exact List.append_ne_nil_of_right_ne_nil _ (List.cons_ne_nil _ _)
    · rw [ne_eq, String.ofList_eq_empty_iff]
      apply List.append_ne_nil_of_right_ne_nil
      exact layout_ne_nil _ _ Nat.toDigits_ne_nil _

/-- A value that says something is shown as something. -/
theorem display_ne_empty {v : Json} (speaks : v.truthy = true) : v.display ≠ "" := by
  cases v with
  | null => cases speaks
  | bool b =>
    cases b
    · cases speaks
    · show "True" ≠ ""
      decide
  | int n =>
    show toString n ≠ ""
    cases n with
    | ofNat n =>
      show Nat.repr n ≠ ""
      rw [Nat.repr_eq_ofList_toDigits, ne_eq, String.ofList_eq_empty_iff]
      exact Nat.toDigits_ne_nil
    | negSucc n =>
      intro empty
      exact absurd (String.append_eq_empty_iff.1 empty).1 (by decide)
  | float x => exact render_ne_empty (by decide) (by decide) x
  | str s =>
    intro empty
    have : s = "" := empty
    subst this
    cases speaks
  | arr items =>
    intro empty
    exact absurd (String.append_eq_empty_iff.1 (String.append_eq_empty_iff.1 empty).1).1 (by decide)
  | obj members =>
    intro empty
    exact absurd (String.append_eq_empty_iff.1 (String.append_eq_empty_iff.1 empty).1).1 (by decide)

end AvroRegistry.Json
