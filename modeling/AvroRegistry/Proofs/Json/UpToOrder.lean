import AvroRegistry.Proofs.Json.Reordered
import AvroRegistry.Proofs.Json.Sameness
import Mathlib.Logic.Relation

/-!
# Equal up to the order of members

Two values are equal up to the order of members if the members of objects, at any depth, need only
change places to make the one of the other (`EqualUpToOrder`). Every other difference counts: a
value without parts is equal to itself alone (`EqualUpToOrder.eq_of_isKey`), the items of arrays are
equal one by one (`equalUpToOrder_arr_iff`), and members are equal under one key
(`equalUpToOrder_obj_iff`).

Where no key occurs twice, two values are equal up to the order of members exactly if they are the
same value with their members in the order of a layout that sorts (`arranged_eq_iff`), and exactly
if such a layout writes one text for both (`encode_eq_iff`).
-/

namespace AvroRegistry.Json

/-- A value becomes another one when the members of one object in it change places. -/
inductive Reorders : Json → Json → Prop where
  | members {xs ys : List (String × Json)} (perm : xs.Perm ys) : Reorders (obj xs) (obj ys)
  | item (front back : List Json) {v w : Json} (step : Reorders v w) :
      Reorders (arr (front ++ v :: back)) (arr (front ++ w :: back))
  | member (front back : List (String × Json)) (key : String) {v w : Json} (step : Reorders v w) :
      Reorders (obj (front ++ (key, v) :: back)) (obj (front ++ (key, w) :: back))

/-- Two values are equal but for the order of members. -/
def EqualUpToOrder : Json → Json → Prop := Relation.ReflTransGen Reorders

variable {v w : Json}

theorem EqualUpToOrder.refl (v : Json) : EqualUpToOrder v v := Relation.ReflTransGen.refl

/-! ## One object -/

theorem Reorders.symm (step : Reorders v w) : Reorders w v := by
  induction step with
  | members perm => exact .members perm.symm
  | item front back _ ih => exact .item front back ih
  | member front back key _ ih => exact .member front back key ih

instance : Std.Symm Reorders := ⟨fun _ _ => Reorders.symm⟩

theorem Reorders.keyed (step : Reorders v w) (keyed : Everywhere Keyed v) :
    Everywhere Keyed w := by
  induction step with
  | members perm =>
    rw [everywhere_obj] at keyed ⊢
    obtain ⟨distinct, each⟩ := keyed
    exact ⟨(perm.map _).nodup_iff.1 distinct, fun m mem => each m (perm.mem_iff.2 mem)⟩
  | item front back _ ih =>
    rw [everywhere_arr, List.forall_mem_append, List.forall_mem_cons] at keyed ⊢
    obtain ⟨-, before, here, behind⟩ := keyed
    exact ⟨trivial, before, ih here, behind⟩
  | member front back key _ ih =>
    rw [everywhere_obj, List.forall_mem_append, List.forall_mem_cons] at keyed ⊢
    obtain ⟨distinct, before, here, behind⟩ := keyed
    refine ⟨?_, before, ih here, behind⟩
    simpa [Keyed, keys] using distinct

section

variable (l : Layout) (sorts : l.sortKeys = true)

include sorts

theorem Reorders.arranged_eq (step : Reorders v w) (keyed : Everywhere Keyed v) :
    arranged l v = arranged l w := by
  induction step with
  | members perm => exact arranged_obj_perm l sorts perm keyed.self
  | item front back _ ih =>
    rw [everywhere_arr, List.forall_mem_append, List.forall_mem_cons] at keyed
    obtain ⟨-, -, here, -⟩ := keyed
    simp only [arranged_arr, List.map_append, List.map_cons, ih here]
  | member front back key _ ih =>
    rw [everywhere_obj, List.forall_mem_append, List.forall_mem_cons] at keyed
    obtain ⟨-, -, here, -⟩ := keyed
    apply arranged_obj_congr
    simp only [mapMembers, List.map_append, List.map_cons, ih here]

/-! ## Any number of objects -/

theorem EqualUpToOrder.arranged_eq (same : EqualUpToOrder v w) (keyed : Everywhere Keyed v) :
    arranged l v = arranged l w := by
  suffices both : Everywhere Keyed w ∧ arranged l v = arranged l w from both.2
  induction same with
  | refl => exact ⟨keyed, rfl⟩
  | tail _ step ih => exact ⟨step.keyed ih.1, ih.2.trans (step.arranged_eq l sorts ih.1)⟩

end

theorem EqualUpToOrder.symm (same : EqualUpToOrder v w) : EqualUpToOrder w v :=
  Std.Symm.symm (r := Relation.ReflTransGen Reorders) _ _ same

/-! ## Items and members -/

theorem EqualUpToOrder.items {xs ys : List Json} (each : List.Forall₂ EqualUpToOrder xs ys)
    (front : List Json) : EqualUpToOrder (arr (front ++ xs)) (arr (front ++ ys)) := by
  induction each generalizing front with
  | nil => exact .refl _
  | @cons x y xs ys here _ ih =>
    have first : EqualUpToOrder (arr (front ++ x :: xs)) (arr (front ++ y :: xs)) :=
      Relation.ReflTransGen.lift (fun v => arr (front ++ v :: xs)) (fun _ _ => .item front xs) _ _
        here
    have others := ih (front ++ [y])
    rw [List.append_assoc, List.append_assoc] at others
    exact first.trans others

/-- Two members have one key and equal values. -/
def EqualMembers (m m' : String × Json) : Prop := m.1 = m'.1 ∧ EqualUpToOrder m.2 m'.2

theorem EqualUpToOrder.members {xs ys : List (String × Json)}
    (each : List.Forall₂ EqualMembers xs ys) (front : List (String × Json)) :
    EqualUpToOrder (obj (front ++ xs)) (obj (front ++ ys)) := by
  induction each generalizing front with
  | nil => exact .refl _
  | @cons m m' xs ys here _ ih =>
    obtain ⟨key, v⟩ := m
    obtain ⟨key', w⟩ := m'
    obtain ⟨rfl, values⟩ : key = key' ∧ EqualUpToOrder v w := here
    have first : EqualUpToOrder (obj (front ++ (key, v) :: xs)) (obj (front ++ (key, w) :: xs)) :=
      Relation.ReflTransGen.lift (fun v => obj (front ++ (key, v) :: xs))
        (fun _ _ => .member front xs key) _ _ values
    have others := ih (front ++ [(key, w)])
    rw [List.append_assoc, List.append_assoc] at others
    exact first.trans others

theorem forall₂_trans {α : Type} {related : α → α → Prop}
    (trans : ∀ a b c, related a b → related b c → related a c) {xs ys zs : List α}
    (first : List.Forall₂ related xs ys) (second : List.Forall₂ related ys zs) :
    List.Forall₂ related xs zs := by
  induction first generalizing zs with
  | nil => exact second
  | cons here _ ih =>
    cases second with
    | cons here' later' => exact .cons (trans _ _ _ here here') (ih later')

theorem forall₂_one {α : Type} {related : α → α → Prop} (same : ∀ a, related a a)
    (front back : List α) {a b : α} (changed : related a b) :
    List.Forall₂ related (front ++ a :: back) (front ++ b :: back) :=
  List.rel_append (List.forall₂_same.2 fun c _ => same c)
    (.cons changed (List.forall₂_same.2 fun c _ => same c))

/-- A value without parts is equal to itself alone. -/
theorem EqualUpToOrder.eq_of_isKey (same : EqualUpToOrder v w) (key : v.isKey = true) : w = v := by
  induction same with
  | refl => rfl
  | tail _ step ih =>
    subst ih
    cases step with
    | members | item | member => cases key

/-- An array is equal to the arrays whose items are equal to its own, one by one. -/
theorem equalUpToOrder_arr_iff {xs : List Json} :
    EqualUpToOrder (arr xs) w ↔ ∃ ys, w = arr ys ∧ List.Forall₂ EqualUpToOrder xs ys := by
  constructor
  · intro same
    induction same with
    | refl => exact ⟨xs, rfl, List.forall₂_same.2 fun v _ => .refl v⟩
    | tail _ step ih =>
      obtain ⟨ys, rfl, each⟩ := ih
      cases step with
      | item front back step =>
        have changed := forall₂_one EqualUpToOrder.refl front back (.single step)
        exact ⟨_, rfl, forall₂_trans (fun _ _ _ => .trans) each changed⟩
  · rintro ⟨ys, rfl, each⟩
    exact EqualUpToOrder.items each []

/-- An object is equal to the objects that have, in some order, members equal to its own. -/
theorem equalUpToOrder_obj_iff {xs : List (String × Json)} :
    EqualUpToOrder (obj xs) w ↔
      ∃ zs ys, w = obj ys ∧ xs.Perm zs ∧ List.Forall₂ EqualMembers zs ys := by
  have unchanged : ∀ m : String × Json, EqualMembers m m := fun m => ⟨rfl, .refl m.2⟩
  have trans : ∀ a b c : String × Json, EqualMembers a b → EqualMembers b c → EqualMembers a c :=
    fun _ _ _ first second => ⟨first.1.trans second.1, first.2.trans second.2⟩
  constructor
  · intro same
    induction same with
    | refl => exact ⟨xs, xs, rfl, .refl xs, List.forall₂_same.2 fun m _ => unchanged m⟩
    | tail _ step ih =>
      obtain ⟨zs, ys, rfl, perm, each⟩ := ih
      cases step with
      | @members _ ys' moved =>
        -- The members of the first object can be moved along with those of the second one.
        have both : Relation.Comp (List.Forall₂ EqualMembers) List.Perm zs ys' := ⟨ys, each, moved⟩
        rw [List.forall₂_comp_perm_eq_perm_comp_forall₂] at both
        obtain ⟨zs', perm', each'⟩ := both
        exact ⟨zs', ys', rfl, perm.trans perm', each'⟩
      | @member front back key v w step =>
        have member : EqualMembers (key, v) (key, w) := ⟨rfl, .single step⟩
        have changed := forall₂_one unchanged front back member
        exact ⟨zs, _, rfl, perm, forall₂_trans trans each changed⟩
  · rintro ⟨zs, ys, rfl, perm, each⟩
    have moved : EqualUpToOrder (obj xs) (obj zs) := .single (.members perm)
    exact moved.trans (EqualUpToOrder.members each [])

/-! ## Texts -/

theorem keyed_of_readable (readable : v.Readable) : v.Keyed := by
  cases v with
  | obj members => exact readable
  | _ => trivial

section

variable (l : Layout)

/-- Arranging a value changes nothing but the order of members. -/
theorem equalUpToOrder_arranged (v : Json) : EqualUpToOrder v (arranged l v) := by
  induction v using induct with
  | step v ih =>
    cases v with
    | arr items =>
      rw [arranged_arr, equalUpToOrder_arr_iff]
      refine ⟨_, rfl, ?_⟩
      rw [List.forall₂_map_right_iff, List.forall₂_same]
      exact fun w mem => ih w (sizeOf_item mem)
    | obj members =>
      rw [arranged_obj, equalUpToOrder_obj_iff]
      refine ⟨_, _, rfl, (arrange_perm l members).symm, ?_⟩
      rw [mapMembers, List.forall₂_map_right_iff, List.forall₂_same]
      intro m mem
      exact ⟨rfl, ih m.2 (sizeOf_member ((arrange_perm l members).mem_iff.1 mem))⟩
    | _ => exact .refl _

variable (sorts : l.sortKeys = true)

include sorts

/-- Two values are equal up to the order of members if they are equal once they are arranged. -/
theorem arranged_eq_iff (keyed : Everywhere Keyed v) :
    arranged l v = arranged l w ↔ EqualUpToOrder v w := by
  constructor
  · intro same
    have back := (equalUpToOrder_arranged l w).symm
    rw [← same] at back
    exact (equalUpToOrder_arranged l v).trans back
  · exact fun same => same.arranged_eq l sorts keyed

/-- Two values that can be read back have one text if they are equal up to the order of members. -/
theorem encode_eq_iff (standard : l.Standard) (readable : Everywhere Readable v)
    (readable' : Everywhere Readable w) : v.encode l = w.encode l ↔ EqualUpToOrder v w := by
  have keyed : Everywhere Keyed v := fun u inside => keyed_of_readable (readable u inside)
  rw [← arranged_eq_iff l sorts keyed]
  constructor
  · intro same
    have read := decode_encode standard readable
    rw [same, decode_encode standard readable'] at read
    exact (Except.ok.inj read).symm
  · intro same
    rw [← encode_arranged, same, encode_arranged]

end

end AvroRegistry.Json
