import AvroRegistry.Breakdown
import AvroRegistry.Sorting.Runs

/-!
# Equality and order of JSON values

Two values are the same when they denote the same thing: numbers by their numeric value, with
false and true counting as zero and one, arrays element by element, objects regardless of the order
of their members. Order is defined between numbers, between texts by code point, and between
arrays by their first difference; every other comparison breaks down.

NaN is one value: it is the same as itself inside a container and as a key, yet a direct comparison
(`equal`) of NaN with itself fails.
-/

namespace AvroRegistry.Json

/-! ## Equality -/

/-- The integer a value counts as, if it is an integer or a truth value. -/
def asInt? : Json → Option Int
  | int n => some n
  | bool b => some (if b then 1 else 0)
  | _ => none

/-- Sameness of two values that are not both arrays or both objects. -/
def sameScalar : Json → Json → Bool
  | null, null => true
  | str s, str t => s == t
  | float x, float y => x.eq y || (x == .nan && y == .nan)
  | float x, v => match v.asInt? with
    | some n => x.eqInt n
    | none => false
  | v, float x => match v.asInt? with
    | some n => x.eqInt n
    | none => false
  | v, w => match v.asInt?, w.asInt? with
    | some n, some m => n == m
    | _, _ => false

mutual

/-- Whether two values are the same, as elements of a container and as keys. -/
def same : Json → Json → Bool
  | arr xs, arr ys => sameItems xs ys
  | obj xs, obj ys => xs.length == ys.length && sameMembers xs ys
  | v, w => sameScalar v w

/-- Whether two lists hold the same values in the same order. -/
def sameItems : List Json → List Json → Bool
  | [], [] => true
  | x :: xs, y :: ys => same x y && sameItems xs ys
  | _, _ => false

/-- Whether every member on the left has the same value on the right. -/
def sameMembers : List (String × Json) → List (String × Json) → Bool
  | [], _ => true
  | (k, v) :: rest, ys =>
    (match lookup k ys with
      | some w => same v w
      | none => false) && sameMembers rest ys

end

/-- A direct comparison: sameness, except that NaN differs from itself. -/
def equal (v w : Json) : Bool :=
  match v with
  | float .nan => false
  | _ => same v w

/-- Whether a list of values contains one that is the same as the given value. -/
def isIn (v : Json) (xs : List Json) : Bool := xs.any (same v)

/-- Whether no value of a list is the same as a later one. -/
def allDistinct : List Json → Bool
  | [] => true
  | v :: rest => !isIn v rest && allDistinct rest

/-! ## Order -/

/-- Order of two values that are not both arrays. -/
def lessScalar : Json → Json → Except Breakdown Bool
  | str s, str t => .ok (decide (s < t))
  | float x, float y => .ok (x.lt y)
  | float x, v => match v.asInt? with
    | some n => .ok (x.ltInt n)
    | none => .error .wrongKind
  | v, float x => match v.asInt? with
    | some n => .ok (Binary64.intLt n x)
    | none => .error .wrongKind
  | v, w => match v.asInt?, w.asInt? with
    | some n, some m => .ok (decide (n < m))
    | _, _ => .error .wrongKind

mutual

/-- Whether one value comes before another. -/
def less : Json → Json → Except Breakdown Bool
  | arr xs, arr ys => lessItems xs ys
  | v, w => lessScalar v w

/-- Arrays compare at the first place where they differ; a proper beginning comes first. -/
def lessItems : List Json → List Json → Except Breakdown Bool
  | [], ys => .ok (!ys.isEmpty)
  | _ :: _, [] => .ok false
  | x :: xs, y :: ys => if same x y then lessItems xs ys else less x y

end

/-! ## Sorting

Texts are sorted by code point. A list with other values is sorted by runs, which fixes the outcome
also where the order is not total: which comparison breaks down, and where NaN ends up. -/

/-- Texts in ascending order of their code points. -/
def sortTexts (texts : List String) : List String := texts.mergeSort fun s t => decide (s ≤ t)

/-- The texts of a list, if it holds nothing else. -/
def texts? : List Json → Option (List String)
  | [] => some []
  | str s :: rest => (texts? rest).map (s :: ·)
  | _ => none

/-- The values of a list in ascending order. -/
def sorted (values : List Json) : Except Breakdown (List Json) :=
  match texts? values with
  | some texts => .ok ((sortTexts texts).map str)
  | none => Sorting.sortBy less values

end AvroRegistry.Json
