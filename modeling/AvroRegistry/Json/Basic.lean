import AvroRegistry.Number.Binary64

/-!
# JSON values

The data that schemas, arguments and answers are made of. Objects keep the order in which their
members were first written, because the order shows when an object is printed; integers are exact
and separate from binary64 numbers, because `1` and `1.0` are written differently.

The module holds the type, the look-up and update of members, and the few questions every reader
of a value asks: its kind, whether it is empty, whether it may be a key. That two values denote the
same, and their order, are in `AvroRegistry.Json.Order`, text in `AvroRegistry.Json.Decode` and
`AvroRegistry.Json.Encode`.
-/

namespace AvroRegistry

/-- A JSON value. -/
inductive Json where
  | null
  | bool (b : Bool)
  | int (n : Int)
  | float (x : Binary64)
  | str (s : String)
  | arr (items : List Json)
  | obj (members : List (String × Json))
  deriving Inhabited

namespace Json

/-! ## Members of an object -/

/-- The value under a key in a list of members: the first one, if the key occurs. -/
def lookup (key : String) : List (String × Json) → Option Json
  | [] => none
  | (k, v) :: rest => if k = key then some v else lookup key rest

/-- The members with a key set to a value: a key that occurs keeps its place, a new one goes to the
end. -/
def insert (key : String) (value : Json) : List (String × Json) → List (String × Json)
  | [] => [(key, value)]
  | (k, v) :: rest => if k = key then (k, value) :: rest else (k, v) :: insert key value rest

/-- The value under a key, if the value is an object that has it. -/
def get? (key : String) : Json → Option Json
  | obj members => lookup key members
  | _ => none

/-- The keys of a list of members, in order. -/
def keys (members : List (String × Json)) : List String := members.map (·.1)

@[simp] theorem lookup_nil (key : String) : lookup key [] = none := rfl

@[simp] theorem lookup_cons (key k : String) (v : Json) (rest : List (String × Json)) :
    lookup key ((k, v) :: rest) = if k = key then some v else lookup key rest := rfl

/-- What was set is found, and nothing else changes. -/
theorem lookup_insert (key other : String) (value : Json) (members : List (String × Json)) :
    lookup other (insert key value members) =
      if other = key then some value else lookup other members := by
  induction members with
  | nil =>
    by_cases h : other = key
    · simp [insert, h]
    · simp [insert, h, Ne.symm h]
  | cons member rest ih =>
    obtain ⟨k, v⟩ := member
    by_cases hk : k = key
    · subst hk
      by_cases ho : other = k
      · simp [insert, ho]
      · simp [insert, ho, Ne.symm ho]
    · by_cases ho : other = key
      · subst ho
        simp [insert, hk, ih]
      · by_cases hko : k = other
        · subst hko
          simp [insert, hk]
        · simp [insert, hk, hko, ih, ho]

/-- A key is found exactly when it is among the keys. -/
theorem lookup_isSome (key : String) (members : List (String × Json)) :
    (lookup key members).isSome = true ↔ key ∈ keys members := by
  induction members with
  | nil => simp [keys]
  | cons member rest ih =>
    obtain ⟨k, v⟩ := member
    by_cases hk : k = key
    · simp [keys, hk]
    · simpa [keys, hk, Ne.symm hk] using ih

/-! ## Kinds and emptiness -/

/-- The word for the kind of a value. -/
def kindName : Json → String
  | null => "NoneType"
  | bool _ => "bool"
  | int _ => "int"
  | float _ => "float"
  | str _ => "str"
  | arr _ => "list"
  | obj _ => "dict"

/-- Whether a value says something: null, false, zero and whatever is empty do not. -/
def truthy : Json → Bool
  | null => false
  | bool b => b
  | int n => n != 0
  | float x => !x.isZero
  | str s => s != ""
  | arr items => !items.isEmpty
  | obj members => !members.isEmpty

/-- Whether a value may be a key of a set or a table: arrays and objects may not. -/
def isKey : Json → Bool
  | arr _ => false
  | obj _ => false
  | _ => true

/-- Whether a value is the given text. -/
def isStr (s : String) : Json → Bool
  | str t => t == s
  | _ => false

/-- The text of a value that is a text. -/
def asStr? : Json → Option String
  | str s => some s
  | _ => none

/-! ## Size -/

mutual

/-- The number of nodes of a value, counting each value and each key. -/
def size : Json → Nat
  | arr items => 1 + sizeItems items
  | obj members => 1 + sizeMembers members
  | _ => 1

/-- The number of nodes of a list of values. -/
def sizeItems : List Json → Nat
  | [] => 0
  | v :: rest => size v + sizeItems rest

/-- The number of nodes of a list of members. -/
def sizeMembers : List (String × Json) → Nat
  | [] => 0
  | (_, v) :: rest => 1 + size v + sizeMembers rest

end

/-! ## Identity -/

mutual

/-- Whether two values are written alike: the same kinds, the same members in the same order. -/
def alike : Json → Json → Bool
  | null, null => true
  | bool a, bool b => a == b
  | int a, int b => a == b
  | float a, float b => decide (a = b)
  | str a, str b => a == b
  | arr xs, arr ys => alikeItems xs ys
  | obj xs, obj ys => alikeMembers xs ys
  | _, _ => false

/-- Whether two lists hold values that are alike. -/
def alikeItems : List Json → List Json → Bool
  | [], [] => true
  | x :: xs, y :: ys => alike x y && alikeItems xs ys
  | _, _ => false

/-- Whether two lists hold members that are alike. -/
def alikeMembers : List (String × Json) → List (String × Json) → Bool
  | [], [] => true
  | (k, x) :: xs, (l, y) :: ys => k == l && alike x y && alikeMembers xs ys
  | _, _ => false

end

mutual

/-- Being alike is being equal. -/
theorem alike_iff : ∀ v w : Json, alike v w = true ↔ v = w
  | null, w => by cases w <;> simp [alike]
  | bool a, w => by cases w <;> simp [alike]
  | int a, w => by cases w <;> simp [alike]
  | float a, w => by cases w <;> simp [alike]
  | str a, w => by cases w <;> simp [alike]
  | arr xs, w => by cases w <;> simp [alike, alikeItems_iff xs]
  | obj xs, w => by cases w <;> simp [alike, alikeMembers_iff xs]

theorem alikeItems_iff : ∀ xs ys : List Json, alikeItems xs ys = true ↔ xs = ys
  | [], ys => by cases ys <;> simp [alikeItems]
  | x :: xs, ys => by cases ys <;> simp [alikeItems, alike_iff x, alikeItems_iff xs]

theorem alikeMembers_iff :
    ∀ xs ys : List (String × Json), alikeMembers xs ys = true ↔ xs = ys
  | [], ys => by cases ys <;> simp [alikeMembers]
  | (k, x) :: xs, ys => by
    cases ys <;> simp [alikeMembers, alike_iff x, alikeMembers_iff xs, Prod.ext_iff, and_assoc]

end

instance : DecidableEq Json := fun v w => decidable_of_iff (alike v w = true) (alike_iff v w)

end Json

end AvroRegistry
