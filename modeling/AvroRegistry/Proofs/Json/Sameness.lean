import AvroRegistry.Proofs.Json.Decoded
import Mathlib.Data.List.Perm.Subperm

/-!
# Sameness is an equivalence

Values that may be keys are the same if they are worth the same (`same_iff_worth`), arrays if they
are the same item by item, and objects if every member of the one has its like in the other. So
values that are the same as a third one are the same (`same_trans`), and where no key occurs twice
in an object, the order of two values does not matter (`same_symm`) and a value is the same as
itself (`same_self`).
-/

namespace AvroRegistry.Json

/-! ## What values are worth -/

/-- What a value that may be a key is worth in comparisons. Numbers and truth values are worth a
multiple of the smallest positive number. -/
inductive Worth where
  | nothing
  | text (s : String)
  | units (n : Int)
  | infinite (negative : Bool)
  | nan

/-- What an integer is worth. -/
def Worth.ofInt (n : Int) : Worth := .units (n * Binary64.unitDenominator)

/-- What a real number is worth. -/
def Worth.ofReal : Binary64 → Worth
  | .finite negative mantissa exponent => .units (Binary64.units negative mantissa exponent)
  | .infinite negative => .infinite negative
  | .nan => .nan

/-- What a value is worth, unless it is one that may not be a key. -/
def worth? : Json → Option Worth
  | null => some .nothing
  | bool b => some (.ofInt (if b then 1 else 0))
  | int n => some (.ofInt n)
  | float x => some (.ofReal x)
  | str s => some (.text s)
  | _ => none

theorem unitDenominator_pos : 0 < Binary64.unitDenominator := by
  unfold Binary64.unitDenominator
  generalize 1074 = exponent
  exact Nat.two_pow_pos exponent

theorem Worth.ofInt_inj {n m : Int} : Worth.ofInt n = Worth.ofInt m ↔ n = m := by
  have positive : (Binary64.unitDenominator : Int) ≠ 0 :=
    Int.natCast_ne_zero.2 (Nat.ne_of_gt unitDenominator_pos)
  unfold Worth.ofInt
  rw [Worth.units.injEq, Int.mul_eq_mul_right_iff positive]

theorem eqInt_iff_worth (x : Binary64) (n : Int) :
    x.eqInt n = true ↔ Worth.ofReal x = Worth.ofInt n := by
  cases x with
  | finite negative mantissa exponent =>
    show (_ == _) = true ↔ Worth.units _ = Worth.units _
    rw [beq_iff_eq, Worth.units.injEq]
  | _ => exact iff_of_false nofun nofun

theorem eq_iff_worth (x y : Binary64) :
    (x.eq y || (x == .nan && y == .nan)) = true ↔ Worth.ofReal x = Worth.ofReal y := by
  cases x <;> cases y <;> simp [Binary64.eq, Worth.ofReal]

/-- Two values that may be keys are the same exactly if they are worth the same. -/
theorem same_iff_worth {v w : Json} (hv : v.isKey = true) (hw : w.isKey = true) :
    same v w = true ↔ v.worth? = w.worth? := by
  rw [same_of_isKey hv]
  have number : ∀ (x : Binary64) (w : Json), w.isKey = true →
      (sameScalar (float x) w = true ↔ (float x).worth? = w.worth?) := by
    intro x w hw
    cases w with
    | arr items => cases hw
    | obj members => cases hw
    | float y => exact (eq_iff_worth x y).trans Option.some_inj.symm
    | bool b => exact (eqInt_iff_worth x _).trans Option.some_inj.symm
    | int n => exact (eqInt_iff_worth x n).trans Option.some_inj.symm
    | _ => cases x <;> exact iff_of_false nofun nofun
  have integer : ∀ n m : Int, (n == m) = true ↔ some (Worth.ofInt n) = some (Worth.ofInt m) :=
    fun n m => beq_iff_eq.trans (Worth.ofInt_inj.symm.trans Option.some_inj.symm)
  cases w with
  | arr items => cases hw
  | obj members => cases hw
  | float y =>
    rw [sameScalar_comm, number y _ hv]
    exact eq_comm
  | null =>
    cases v with
    | arr items => cases hv
    | obj members => cases hv
    | float x => exact number x _ hw
    | null => exact iff_of_true rfl rfl
    | bool | int | str => exact iff_of_false nofun nofun
  | str t =>
    cases v with
    | arr items => cases hv
    | obj members => cases hv
    | float x => exact number x _ hw
    | str s =>
      exact beq_iff_eq.trans ((Worth.text.injEq s t).to_iff.symm.trans Option.some_inj.symm)
    | null | bool | int => exact iff_of_false nofun nofun
  | bool | int =>
    cases v with
    | arr items => cases hv
    | obj members => cases hv
    | float x => exact number x _ hw
    | bool | int => exact integer _ _
    | null | str => exact iff_of_false nofun nofun

/-! ## Items and members -/

theorem sameItems_iff {xs ys : List Json} :
    sameItems xs ys = true ↔ List.Forall₂ (fun x y => same x y = true) xs ys := by
  induction xs generalizing ys with
  | nil => cases ys <;> simp [sameItems]
  | cons x xs ih => cases ys <;> simp [sameItems, ih]

theorem sameMembers_iff {xs ys : List (String × Json)} :
    sameMembers xs ys = true ↔
      ∀ m ∈ xs, ∃ w, lookup m.1 ys = some w ∧ same m.2 w = true := by
  induction xs with
  | nil => simp [sameMembers]
  | cons m xs ih =>
    obtain ⟨k, v⟩ := m
    rw [sameMembers, Bool.and_eq_true, ih, List.forall_mem_cons]
    refine and_congr_left fun _ => ?_
    cases lookup k ys <;> simp

theorem same_arr {xs ys : List Json} :
    same (arr xs) (arr ys) = true ↔ List.Forall₂ (fun x y => same x y = true) xs ys := by
  rw [same, sameItems_iff]

theorem same_obj {xs ys : List (String × Json)} :
    same (obj xs) (obj ys) = true ↔
      xs.length = ys.length ∧ ∀ m ∈ xs, ∃ w, lookup m.1 ys = some w ∧ same m.2 w = true := by
  rw [same, Bool.and_eq_true, beq_iff_eq, sameMembers_iff]

/-- What makes two values the same. -/
inductive Same : Json → Json → Prop where
  | keys {v w : Json} (hv : v.isKey = true) (hw : w.isKey = true)
      (worth : v.worth? = w.worth?) : Same v w
  | items {xs ys : List Json} (each : List.Forall₂ (fun x y => same x y = true) xs ys) :
      Same (arr xs) (arr ys)
  | members {xs ys : List (String × Json)} (count : xs.length = ys.length)
      (each : ∀ m ∈ xs, ∃ w, lookup m.1 ys = some w ∧ same m.2 w = true) :
      Same (obj xs) (obj ys)

theorem same_iff {v w : Json} : same v w = true ↔ Same v w := by
  constructor
  · intro alike
    by_cases hv : v.isKey = true
    · by_cases hw : w.isKey = true
      · exact .keys hv hw ((same_iff_worth hv hw).1 alike)
      · cases w with
        | arr | obj => cases v <;> simp [same, sameScalar, asInt?, isKey] at alike hv
        | _ => exact absurd rfl hw
    · cases v with
      | arr xs =>
        cases w with
        | arr ys => exact .items (same_arr.1 alike)
        | _ => simp [same, sameScalar, asInt?] at alike
      | obj xs =>
        cases w with
        | obj ys => exact .members (same_obj.1 alike).1 (same_obj.1 alike).2
        | _ => simp [same, sameScalar, asInt?] at alike
      | _ => exact absurd rfl hv
  · rintro (⟨hv, hw, worth⟩ | each | ⟨count, each⟩)
    · exact (same_iff_worth hv hw).2 worth
    · exact same_arr.2 each
    · exact same_obj.2 ⟨count, each⟩

/-! ## The laws -/

/-- A value whose members, if it has any, are told apart by their keys. -/
def Keyed : Json → Prop
  | obj members => (keys members).Nodup
  | _ => True

theorem keyed_of_plain {v : Json} (plain : v.Plain) : v.Keyed := by
  cases v with
  | obj members => exact plain
  | _ => trivial

/-- Where no key occurs twice in an object, sameness does not depend on the order of two values. -/
theorem same_symm {v w : Json} (keyed : Everywhere Keyed v) (alike : same v w = true) :
    same w v = true := by
  induction v using induct generalizing w with
  | step v ih =>
    rw [same_iff] at alike ⊢
    cases alike with
    | keys hv hw worth => exact .keys hw hv worth.symm
    | @items xs ys each =>
      have symm : ∀ x ∈ xs, ∀ {y}, same x y = true → same y x = true := fun x mem _ =>
        ih x (sizeOf_item mem) (((everywhere_arr xs).1 keyed).2 x mem)
      refine .items ?_
      clear ih keyed
      induction each with
      | nil => exact .nil
      | cons head rest step =>
        refine .cons (symm _ List.mem_cons_self head) ?_
        exact step fun x mem => symm x (List.mem_cons_of_mem _ mem)
    | @members xs ys count each =>
      obtain ⟨distinct, inner⟩ := (everywhere_obj xs).1 keyed
      -- As many keys on both sides, and those of the one all among those of the other.
      have among : keys xs ⊆ keys ys := by
        intro key mem
        obtain ⟨m, listed, rfl⟩ := List.mem_map.1 mem
        obtain ⟨w, found, -⟩ := each m listed
        exact List.mem_map.2 ⟨_, mem_of_lookup found, rfl⟩
      have lengths : (keys ys).length ≤ (keys xs).length := by
        unfold keys
        rw [List.length_map, List.length_map]
        exact Nat.le_of_eq count.symm
      have perm := (List.subperm_of_subset distinct among).perm_of_length_le lengths
      refine .members count.symm fun m mem => ?_
      obtain ⟨⟨key, v⟩, listed, same⟩ := List.mem_map.1 (perm.mem_iff.2 (List.mem_map_of_mem mem))
      obtain rfl : key = m.1 := same
      obtain ⟨w, found, alike⟩ := each _ listed
      rw [lookup_of_mem (perm.nodup_iff.1 distinct) mem] at found
      cases found
      exact ⟨v, lookup_of_mem distinct listed, ih v (sizeOf_member listed) (inner _ listed) alike⟩

/-- A value in which no key occurs twice in an object is the same as itself. -/
theorem same_self {v : Json} (keyed : Everywhere Keyed v) : same v v = true := by
  induction v using induct with
  | step v ih =>
    cases v with
    | arr items =>
      have inner := ((everywhere_arr items).1 keyed).2
      exact same_arr.2 (List.forall₂_same.2 fun v mem => ih v (sizeOf_item mem) (inner v mem))
    | obj members =>
      obtain ⟨distinct, inner⟩ := (everywhere_obj members).1 keyed
      refine same_obj.2 ⟨rfl, fun m mem => ?_⟩
      exact ⟨m.2, lookup_of_mem distinct mem, ih m.2 (sizeOf_member mem) (inner m mem)⟩
    | _ => exact same_refl rfl

theorem equal_iff {v w : Json} : v.equal w = true ↔ v ≠ float .nan ∧ same v w = true := by
  unfold equal
  split
  · exact iff_of_false nofun fun h => h.1 rfl
  · next other => exact (and_iff_right other).symm

/-- Only NaN is the same as NaN. -/
theorem eq_nan_of_same {v : Json} (alike : same (float .nan) v = true) : v = float .nan := by
  rw [same_of_isKey rfl] at alike
  cases v with
  | float x => cases x <;> simp [sameScalar, Binary64.eq] at alike ⊢
  | _ => cases alike

/-- A direct comparison does not depend on the order of two values. -/
theorem equal_comm {v w : Json} (keyedV : Everywhere Keyed v) (keyedW : Everywhere Keyed w) :
    v.equal w = w.equal v := by
  have turned {v w : Json} (keyed : Everywhere Keyed v) (equal : v.equal w = true) :
      w.equal v = true := by
    rw [equal_iff] at equal ⊢
    refine ⟨?_, same_symm keyed equal.2⟩
    rintro rfl
    exact equal.1 (eq_nan_of_same (same_symm keyed equal.2))
  exact Bool.eq_iff_iff.2 ⟨turned keyedV, turned keyedW⟩

end AvroRegistry.Json
