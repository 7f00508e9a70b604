import AvroRegistry.Json.Access
import AvroRegistry.Proofs.Json.Decoded
import AvroRegistry.Proofs.Sorting.Permuted

/-!
# What the order of members does not change

Taking a value apart by key, and asking whether two values are the same, gives on values with their
members in order what it gives on the values themselves: the parts that are found are arranged, and
sameness is not touched at all (`same_arranged`), as long as no key occurs twice. Nor does a text in
a layout that sorts tell in which order the members came (`encode_arranged`, `arranged_obj_perm`).
-/

namespace AvroRegistry.Json

variable (l l' : Layout)

/-! ## Parts by key -/

theorem get?_arranged {v : Json} (plain : Everywhere Plain v) (key : String) :
    (arranged l v).get? key = (v.get? key).map (arranged l) := by
  cases v with
  | obj members =>
    rw [arranged_obj]
    exact lookup_arranged l plain.self key
  | arr items =>
    rw [arranged_arr]
    rfl
  | _ => rfl

theorem item_arranged {v : Json} (plain : Everywhere Plain v) (key : String) :
    (arranged l v).item key = (v.item key).map (arranged l) := by
  cases v with
  | obj members =>
    rw [arranged_obj, item, lookup_arranged l plain.self, item]
    cases lookup key members <;> rfl
  | arr items =>
    rw [arranged_arr]
    rfl
  | _ => rfl

/-! ## Sameness -/

theorem isKey_arranged (v : Json) : (arranged l v).isKey = v.isKey := by
  cases v <;> rfl

theorem sameScalar_arranged (v w : Json) : sameScalar v (arranged l w) = sameScalar v w := by
  cases v <;> cases w <;> rfl

theorem sameMembers_eq_all (xs ys : List (String × Json)) :
    sameMembers xs ys = xs.all fun m => (lookup m.1 ys).any (same m.2) := by
  induction xs with
  | nil => rw [sameMembers, List.all_nil]
  | cons m rest ih =>
    obtain ⟨k, v⟩ := m
    rw [sameMembers, List.all_cons, ih]
    cases lookup k ys <;> rfl

theorem sameItems_arranged {xs : List Json}
    (each : ∀ v ∈ xs, ∀ w, Everywhere Plain w →
      same (arranged l v) (arranged l' w) = same v w) :
    ∀ {ys : List Json}, (∀ w ∈ ys, Everywhere Plain w) →
      sameItems (xs.map (arranged l)) (ys.map (arranged l')) = sameItems xs ys := by
  induction xs with
  | nil =>
    intro ys _
    cases ys with
    | nil => rfl
    | cons w ys => simp [sameItems]
  | cons v rest ih =>
    intro ys plain
    cases ys with
    | nil => simp [sameItems]
    | cons w ys =>
      obtain ⟨here, later⟩ := List.forall_mem_cons.1 each
      obtain ⟨plainW, plainYs⟩ := List.forall_mem_cons.1 plain
      rw [List.map_cons, List.map_cons, sameItems, sameItems, here w plainW, ih later plainYs]

theorem sameMembers_arranged {xs ys : List (String × Json)}
    (each : ∀ m ∈ xs, ∀ w, Everywhere Plain w →
      same (arranged l m.2) (arranged l' w) = same m.2 w)
    (plain : Everywhere Plain (obj ys)) :
    sameMembers (mapMembers (arranged l) (arrange l xs))
      (mapMembers (arranged l') (arrange l' ys)) = sameMembers xs ys := by
  rw [sameMembers_eq_all, sameMembers_eq_all, mapMembers, List.all_map, (arrange_perm l xs).all_eq]
  rw [Bool.eq_iff_iff, List.all_eq_true, List.all_eq_true]
  refine forall₂_congr fun m mem => ?_
  show (lookup m.1 (mapMembers (arranged l') (arrange l' ys))).any (same (arranged l m.2)) = _ ↔ _
  rw [lookup_arranged l' plain.self]
  cases found : lookup m.1 ys with
  | none => rfl
  | some w =>
    have value := plain.lookup found
    rw [Option.map_some, Option.any_some, each m mem w value, Option.any_some]

/-- Whether two values are the same does not depend on the order of members. -/
theorem same_arranged (v : Json) : ∀ w, Everywhere Plain v → Everywhere Plain w →
    same (arranged l v) (arranged l' w) = same v w := by
  induction v using induct with
  | step v ih =>
    intro w plainV plainW
    cases v with
    | arr xs =>
      cases w with
      | arr ys =>
        rw [arranged_arr, arranged_arr, same, same]
        exact sameItems_arranged l l' (fun v mem w => ih v (sizeOf_item mem) w
          (((everywhere_arr xs).1 plainV).2 v mem)) ((everywhere_arr ys).1 plainW).2
      | _ => rfl
    | obj xs =>
      cases w with
      | obj ys =>
        have lengths : (mapMembers (arranged l) (arrange l xs)).length = xs.length := by
          rw [mapMembers, List.length_map, (arrange_perm l xs).length_eq]
        have lengths' : (mapMembers (arranged l') (arrange l' ys)).length = ys.length := by
          rw [mapMembers, List.length_map, (arrange_perm l' ys).length_eq]
        rw [arranged_obj, arranged_obj, same, same, lengths, lengths',
          sameMembers_arranged l l' (fun m mem w => ih m.2 (sizeOf_member mem) w
            (((everywhere_obj xs).1 plainV).2 m mem)) plainW]
      | _ => rfl
    | _ =>
      rw [arranged_of_isKey l rfl, same_of_isKey rfl, same_of_isKey rfl]
      exact sameScalar_arranged l' _ w

theorem equal_arranged {v w : Json} (plainV : Everywhere Plain v) (plainW : Everywhere Plain w) :
    equal (arranged l v) (arranged l' w) = equal v w := by
  have same := same_arranged l l' v w plainV plainW
  cases v with
  | float x => cases x <;> first | rfl | exact same
  | _ => exact same

/-- A text is among the values of a list before and after they are arranged. -/
theorem isIn_arranged (s : String) (values : List Json) :
    (str s).isIn (values.map (arranged l)) = (str s).isIn values := by
  unfold isIn
  rw [List.any_map]
  refine List.any_congr rfl fun v => ?_
  show same (str s) (arranged l v) = same (str s) v
  rw [same_of_isKey rfl, same_of_isKey rfl]
  exact sameScalar_arranged l (str s) v

/-- So is any other one, where no key occurs twice. -/
theorem isIn_arranged_plain {v : Json} {values : List Json} (plainV : Everywhere Plain v)
    (plain : ∀ w ∈ values, Everywhere Plain w) :
    (arranged l v).isIn (values.map (arranged l')) = v.isIn values := by
  unfold isIn
  rw [List.any_map, Bool.eq_iff_iff, List.any_eq_true, List.any_eq_true]
  refine exists_congr fun w => and_congr_right fun mem => ?_
  show same (arranged l v) (arranged l' w) = true ↔ _
  rw [same_arranged l l' v w plainV (plain w mem)]

/-! ## Members in order -/

theorem arrange_sorted {α : Type} (sorts : l.sortKeys = true) (members : List (String × α)) :
    (arrange l members).Pairwise fun m m' => m.1 ≤ m'.1 := by
  unfold arrange
  rw [if_pos sorts]
  exact Sorting.pairwise_mergeSort_text (fun m : String × α => m.1) members

/-- Arranging what is arranged changes nothing. -/
theorem arrange_arrange {α : Type} (members : List (String × α)) :
    arrange l (arrange l members) = arrange l members := by
  by_cases sorts : l.sortKeys = true
  · conv_lhs => unfold arrange
    rw [if_pos sorts]
    exact List.mergeSort_of_pairwise
      ((arrange_sorted l sorts members).imp fun le => decide_eq_true le)
  · unfold arrange
    rw [if_neg sorts]

/-- Where no key occurs twice, the keys alone decide on the order. -/
theorem arrange_perm_eq {xs ys : List (String × Json)} (sorts : l.sortKeys = true)
    (perm : xs.Perm ys) (distinct : (keys xs).Nodup) : arrange l xs = arrange l ys := by
  have same : (arrange l xs).Perm (arrange l ys) :=
    ((arrange_perm l xs).trans perm).trans (arrange_perm l ys).symm
  refine same.eq_of_pairwise ?_ (arrange_sorted l sorts xs) (arrange_sorted l sorts ys)
  rintro ⟨k, v⟩ ⟨k', w⟩ mem mem' le le'
  obtain rfl : k = k' := String.le_antisymm le le'
  have found := lookup_of_mem distinct ((arrange_perm l xs).mem_iff.1 mem)
  have found' := lookup_of_mem distinct (perm.mem_iff.2 ((arrange_perm l ys).mem_iff.1 mem'))
  rw [found] at found'
  cases found'
  rfl

theorem arranged_obj_perm {xs ys : List (String × Json)} (sorts : l.sortKeys = true)
    (perm : xs.Perm ys) (distinct : (keys xs).Nodup) :
    arranged l (obj xs) = arranged l (obj ys) := by
  rw [arranged_obj, arranged_obj, arrange_perm_eq l sorts perm distinct]

/-- An arranged object depends on its arranged members. -/
theorem arranged_obj_congr {xs ys : List (String × Json)}
    (same : mapMembers (arranged l) xs = mapMembers (arranged l) ys) :
    arranged l (obj xs) = arranged l (obj ys) := by
  rw [arranged_obj, arranged_obj, ← arrange_mapMembers, ← arrange_mapMembers, same]

/-- Arranging a value that is arranged changes nothing. -/
theorem arranged_arranged (v : Json) : arranged l (arranged l v) = arranged l v := by
  induction v using induct with
  | step v ih =>
    cases v with
    | arr items =>
      rw [arranged_arr, arranged_arr, List.map_map]
      exact congrArg arr (List.map_congr_left fun w mem => ih w (sizeOf_item mem))
    | obj members =>
      have each : mapMembers (arranged l) (mapMembers (arranged l) members) =
          mapMembers (arranged l) members := by
        unfold mapMembers
        rw [List.map_map]
        refine List.map_congr_left fun m mem => ?_
        simp [ih m.2 (sizeOf_member mem)]
      rw [arranged_obj, arranged_obj, arrange_mapMembers, arrange_arrange, ← arrange_mapMembers,
        ← arrange_mapMembers, each]
    | _ => rfl

/-- All layouts that sort have one order. -/
theorem arranged_eq_compact (sorts : l.sortKeys = true) (v : Json) :
    arranged l v = arranged compact v := by
  induction v using induct with
  | step v ih =>
    cases v with
    | arr items =>
      rw [arranged_arr, arranged_arr]
      exact congrArg arr (List.map_congr_left fun w mem => ih w (sizeOf_item mem))
    | obj members =>
      have order : arrange l members = arrange compact members := by
        unfold arrange
        rw [if_pos sorts, if_pos (show compact.sortKeys = true from rfl)]
      rw [arranged_obj, arranged_obj, order]
      refine congrArg obj (List.map_congr_left fun m mem => ?_)
      rw [ih m.2 (sizeOf_member ((arrange_perm compact members).mem_iff.1 mem))]
    | _ => rfl

/-- A value in the order of a text is in the order of every layout. -/
theorem arranged_of_compact {v : Json} (inOrder : arranged compact v = v) : arranged l v = v := by
  by_cases sorts : l.sortKeys = true
  · rw [arranged_eq_compact l sorts, inOrder]
  · exact arranged_of_unsorted l (Bool.eq_false_iff.2 sorts) v

/-! ## Texts -/

theorem writeMembers_eq_mapMembers (depth : Nat) (members : List (String × Json)) :
    writeMembers l depth members = mapMembers (write l depth) members :=
  writeMembers_eq_map l depth members

/-- A text is that of the arranged value. -/
theorem write_arranged (v : Json) : ∀ depth, write l depth (arranged l v) = write l depth v := by
  induction v using induct with
  | step v ih =>
    intro depth
    cases v with
    | arr items =>
      have each : (items.map (arranged l)).map (write l (depth + 1)) =
          items.map (write l (depth + 1)) := by
        rw [List.map_map]
        exact List.map_congr_left fun w mem => ih w (sizeOf_item mem) (depth + 1)
      rw [arranged_arr, write, write, writeItems_eq_map, writeItems_eq_map, each]
    | obj members =>
      have each : mapMembers (write l (depth + 1)) (mapMembers (arranged l) members) =
          mapMembers (write l (depth + 1)) members := by
        unfold mapMembers
        rw [List.map_map]
        refine List.map_congr_left fun m mem => ?_
        simp [ih m.2 (sizeOf_member mem)]
      have order : arrange l (mapMembers (write l (depth + 1))
          (arrange l (mapMembers (arranged l) members))) =
          arrange l (mapMembers (write l (depth + 1)) members) := by
        rw [arrange_mapMembers, arrange_arrange, ← arrange_mapMembers, each]
      rw [arranged_obj, write, write, writeMembers_eq_mapMembers, writeMembers_eq_mapMembers,
        ← arrange_mapMembers l (arranged l), order]
    | _ => rfl

theorem encode_arranged (v : Json) : (arranged l v).encode l = v.encode l := by
  unfold encode
  rw [write_arranged]

end AvroRegistry.Json
