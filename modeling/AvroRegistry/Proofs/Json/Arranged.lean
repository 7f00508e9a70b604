import AvroRegistry.Json.Encode
import AvroRegistry.Proofs.Json.Values
import Mathlib.Data.List.Basic

/-!
# The order of members

A layout writes the members of an object in an order of its own, so what is read back from a text is
the value with its members in that order: `Json.arranged`. Where no key occurs twice the order
changes nothing that a look-up could tell (`lookup_arranged`), and every value but arrays and
objects stays as it is.

`Json.parts` lists the values in a value, itself included; what is required of a value at every
depth is stated over them.
-/

namespace AvroRegistry.Json

/-! ## Values in a value -/

mutual

/-- The values in a value, itself first. -/
def parts : Json → List Json
  | arr items => arr items :: partsOfItems items
  | obj members => obj members :: partsOfMembers members
  | v => [v]

/-- The values in the values of a list. -/
def partsOfItems : List Json → List Json
  | [] => []
  | v :: rest => v.parts ++ partsOfItems rest

/-- The values in the values of a list of members. -/
def partsOfMembers : List (String × Json) → List Json
  | [] => []
  | (_, v) :: rest => v.parts ++ partsOfMembers rest

end

theorem partsOfItems_eq_flatMap (items : List Json) :
    partsOfItems items = items.flatMap parts := by
  induction items with
  | nil => rfl
  | cons v rest ih => simp [partsOfItems, ih]

theorem partsOfMembers_eq_flatMap (members : List (String × Json)) :
    partsOfMembers members = members.flatMap fun m => m.2.parts := by
  induction members with
  | nil => rfl
  | cons m rest ih =>
    obtain ⟨k, v⟩ := m
    simp [partsOfMembers, ih]

theorem self_mem_parts (v : Json) : v ∈ v.parts := by
  cases v <;> exact List.mem_cons_self

theorem parts_item {v : Json} {items : List Json} (mem : v ∈ items) :
    v.parts ⊆ (arr items).parts := by
  rw [parts, partsOfItems_eq_flatMap]
  exact fun w inside => List.mem_cons_of_mem _ (List.mem_flatMap.2 ⟨v, mem, inside⟩)

theorem parts_member {m : String × Json} {members : List (String × Json)} (mem : m ∈ members) :
    m.2.parts ⊆ (obj members).parts := by
  rw [parts, partsOfMembers_eq_flatMap]
  exact fun w inside => List.mem_cons_of_mem _ (List.mem_flatMap.2 ⟨m, mem, inside⟩)

/-- Whether all values in a value have a property. -/
def Everywhere (p : Json → Prop) (v : Json) : Prop := ∀ w ∈ v.parts, p w

variable {p : Json → Prop}

theorem everywhere_arr (items : List Json) :
    Everywhere p (arr items) ↔ p (arr items) ∧ ∀ v ∈ items, Everywhere p v := by
  simp only [Everywhere, parts, partsOfItems_eq_flatMap, List.forall_mem_cons, List.mem_flatMap]
  exact and_congr_right fun _ => ⟨fun h v mem w inside => h w ⟨v, mem, inside⟩,
    fun h w ⟨v, mem, inside⟩ => h v mem w inside⟩

theorem everywhere_obj (members : List (String × Json)) :
    Everywhere p (obj members) ↔ p (obj members) ∧ ∀ m ∈ members, Everywhere p m.2 := by
  simp only [Everywhere, parts, partsOfMembers_eq_flatMap, List.forall_mem_cons, List.mem_flatMap]
  exact and_congr_right fun _ => ⟨fun h v mem w inside => h w ⟨v, mem, inside⟩,
    fun h w ⟨v, mem, inside⟩ => h v mem w inside⟩

/-- Of a value without parts that is one requirement. -/
theorem everywhere_of_isKey {v : Json} (key : v.isKey = true) : Everywhere p v ↔ p v := by
  cases v with
  | arr items => cases key
  | obj members => cases key
  | _ => exact List.forall_mem_singleton

theorem Everywhere.self {v : Json} (all : Everywhere p v) : p v := all v (self_mem_parts v)

/-- The parts of a part are parts. -/
theorem parts_part {v w : Json} (mem : w ∈ v.parts) : w.parts ⊆ v.parts := by
  induction v using induct with
  | step v ih =>
    cases v with
    | arr items =>
      rcases List.mem_cons.1 mem with rfl | inside
      · exact List.Subset.refl _
      · rw [partsOfItems_eq_flatMap] at inside
        obtain ⟨item, listed, deeper⟩ := List.mem_flatMap.1 inside
        exact List.Subset.trans (ih item (sizeOf_item listed) deeper) (parts_item listed)
    | obj members =>
      rcases List.mem_cons.1 mem with rfl | inside
      · exact List.Subset.refl _
      · rw [partsOfMembers_eq_flatMap] at inside
        obtain ⟨m, listed, deeper⟩ := List.mem_flatMap.1 inside
        exact List.Subset.trans (ih m.2 (sizeOf_member listed) deeper) (parts_member listed)
    | _ =>
      obtain rfl := List.mem_singleton.1 mem
      exact List.Subset.refl _

theorem Everywhere.part {v w : Json} (all : Everywhere p v) (mem : w ∈ v.parts) :
    Everywhere p w := fun u inside => all u (parts_part mem inside)

/-! ## Members by key -/

/-- A member is found under its key if no other one has that key. -/
theorem lookup_of_mem {members : List (String × Json)} (distinct : (keys members).Nodup)
    {key : String} {v : Json} (mem : (key, v) ∈ members) : lookup key members = some v := by
  induction members with
  | nil => cases mem
  | cons m rest ih =>
    obtain ⟨k, w⟩ := m
    obtain ⟨new, distinct⟩ := List.nodup_cons.1 distinct
    rw [lookup_cons]
    rcases List.mem_cons.1 mem with here | later
    · cases here
      rw [if_pos rfl]
    · have other : k ≠ key := by
        rintro rfl
        exact new (List.mem_map.2 ⟨_, later, rfl⟩)
      rw [if_neg other]
      exact ih distinct later

/-- What is found under a key is a member. -/
theorem mem_of_lookup {members : List (String × Json)} {key : String} {v : Json}
    (found : lookup key members = some v) : (key, v) ∈ members := by
  induction members with
  | nil => cases found
  | cons m rest ih =>
    obtain ⟨k, w⟩ := m
    rw [lookup_cons] at found
    split at found
    · next same =>
      cases found
      rw [same]
      exact List.mem_cons_self
    · exact List.mem_cons_of_mem _ (ih found)

theorem parts_lookup {key : String} {v : Json} {members : List (String × Json)}
    (found : lookup key members = some v) : v.parts ⊆ (obj members).parts :=
  parts_member (mem_of_lookup found)

theorem Everywhere.lookup {members : List (String × Json)} (all : Everywhere p (obj members))
    {key : String} {v : Json} (found : Json.lookup key members = some v) : Everywhere p v :=
  ((everywhere_obj members).1 all).2 _ (mem_of_lookup found)

/-- The order of members does not matter to a look-up. -/
theorem lookup_perm {xs ys : List (String × Json)} (perm : xs.Perm ys)
    (distinct : (keys xs).Nodup) (key : String) : lookup key xs = lookup key ys := by
  have distinct' : (keys ys).Nodup := (perm.map _).nodup_iff.1 distinct
  cases found : lookup key ys with
  | some v => exact lookup_of_mem distinct (perm.mem_iff.2 (mem_of_lookup found))
  | none =>
    cases found' : lookup key xs with
    | none => rfl
    | some v =>
      rw [lookup_of_mem distinct' (perm.mem_iff.1 (mem_of_lookup found'))] at found
      cases found

/-- Members with a function applied to their values. -/
def mapMembers {α β : Type} (f : α → β) (members : List (String × α)) : List (String × β) :=
  members.map fun m => (m.1, f m.2)

theorem keys_mapMembers (f : Json → Json) (members : List (String × Json)) :
    keys (mapMembers f members) = keys members := by
  simp [keys, mapMembers]

theorem lookup_mapMembers (f : Json → Json) (key : String) (members : List (String × Json)) :
    lookup key (mapMembers f members) = (lookup key members).map f := by
  induction members with
  | nil => rfl
  | cons m rest ih =>
    obtain ⟨k, v⟩ := m
    show lookup key ((k, f v) :: mapMembers f rest) = _
    rw [lookup_cons, lookup_cons, ih]
    split <;> rfl

/-! ## The order of a layout -/

variable (l : Layout)

theorem arrange_perm {α : Type} (members : List (String × α)) :
    (arrange l members).Perm members := by
  unfold arrange
  split
  · exact List.mergeSort_perm _ _
  · exact .refl _

/-- Members are arranged by their keys alone. -/
theorem arrange_mapMembers {α β : Type} (f : α → β) (members : List (String × α)) :
    arrange l (mapMembers f members) = mapMembers f (arrange l members) := by
  unfold arrange
  split
  · symm
    exact List.map_mergeSort (f := fun m : String × α => (m.1, f m.2)) fun _ _ _ _ => rfl
  · rfl

mutual

/-- A value with its members, at every depth, in the order in which a layout writes them. -/
def arranged : Json → Json
  | arr items => arr (arrangedItems items)
  | obj members => obj (arrange l (arrangedMembers members))
  | v => v

/-- The values of a list with their members in order. -/
def arrangedItems : List Json → List Json
  | [] => []
  | v :: rest => arranged v :: arrangedItems rest

/-- The values of a list of members with their own members in order. -/
def arrangedMembers : List (String × Json) → List (String × Json)
  | [] => []
  | (k, v) :: rest => (k, arranged v) :: arrangedMembers rest

end

theorem arranged_arr (items : List Json) :
    arranged l (arr items) = arr (items.map (arranged l)) := by
  have each : ∀ xs, arrangedItems l xs = xs.map (arranged l) := by
    intro xs
    induction xs with
    | nil => rfl
    | cons v rest ih => simp [arrangedItems, ih]
  rw [arranged, each]

theorem arranged_obj (members : List (String × Json)) :
    arranged l (obj members) = obj (mapMembers (arranged l) (arrange l members)) := by
  have each : ∀ xs, arrangedMembers l xs = mapMembers (arranged l) xs := by
    intro xs
    induction xs with
    | nil => rfl
    | cons m rest ih =>
      obtain ⟨k, v⟩ := m
      simp [arrangedMembers, mapMembers, ih]
  rw [arranged, each, arrange_mapMembers]

theorem arranged_of_isKey {v : Json} (key : v.isKey = true) : arranged l v = v := by
  cases v with
  | arr items => cases key
  | obj members => cases key
  | _ => rfl

/-- A layout that keeps the order of members arranges nothing. -/
theorem arranged_of_unsorted (keeps : l.sortKeys = false) (v : Json) : arranged l v = v := by
  induction v using induct with
  | step v ih =>
    cases v with
    | arr items =>
      rw [arranged_arr, List.map_congr_left fun w mem => ih w (sizeOf_item mem), List.map_id']
    | obj members =>
      have order : arrange l members = members := by simp [arrange, keeps]
      have each : ∀ m ∈ members, (m.1, arranged l m.2) = m := by
        intro m mem
        rw [ih m.2 (sizeOf_member mem)]
      rw [arranged_obj, order, mapMembers, List.map_congr_left each, List.map_id']
    | _ => rfl

/-- Where no key occurs twice, the arranged value under a key is found in its arranged object. -/
theorem lookup_arranged {members : List (String × Json)} (distinct : (keys members).Nodup)
    (key : String) : lookup key (mapMembers (arranged l) (arrange l members)) =
      (lookup key members).map (arranged l) := by
  have perm := (arrange_perm l members).symm
  rw [lookup_mapMembers, lookup_perm perm distinct]

end AvroRegistry.Json
