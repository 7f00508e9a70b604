/-!
# Binary64 numbers as exact values

A number of a JSON text that has a fraction or an exponent is the binary64 number nearest to it.
This module holds those numbers as exact data, a sign, a mantissa and an exponent, so that
equality, order and rounding are questions about natural numbers.

* `ofRatio` rounds an exact quotient to the nearest number, ties to the even mantissa.
* `ofDecimal` reads `digits · 10 ^ exponent`.
* `eqInt`, `ltInt`, `intLt`, `eq` and `lt` compare exactly, without rounding the integer.

There is one NaN. Nothing here prints a number: `AvroRegistry.Number.Shortest` does.
-/

namespace AvroRegistry

/-- A binary64 number. The finite number with sign `s`, mantissa `m` and exponent `e` is
`(-1) ^ s · m · 2 ^ e / 2 ^ 1074`; the functions of this module build it with `m < 2 ^ 53`, and
with `2 ^ 52 ≤ m` unless `e = 0`, so each number other than zero has one form. -/
inductive Binary64 where
  | finite (negative : Bool) (mantissa exponent : Nat)
  | infinite (negative : Bool)
  | nan
  deriving DecidableEq, Repr, Inhabited

namespace Binary64

/-! ## Rounding -/

/-- The integer nearest to `num / den`; a half goes to the even neighbour. -/
def roundHalfEven (num den : Nat) : Nat :=
  let floor := num / den
  let rest := 2 * (num % den)
  if rest < den then floor
  else if den < rest then floor + 1
  else floor + floor % 2

/-- The denominator of the smallest positive number. -/
def unitDenominator : Nat := Nat.pow 2 1074

/-- The largest exponent of a finite number. -/
def maxExponent : Nat := 2045

/-- The number nearest to `num / den`, ties to the even mantissa, infinite when that exceeds the
finite range. -/
def ofRatio (negative : Bool) (num den : Nat) : Binary64 :=
  let units := num * unitDenominator
  let exponent := (units / den).log2 - 52
  let mantissa := roundHalfEven units (den * Nat.pow 2 exponent)
  let (mantissa, exponent) :=
    if mantissa = Nat.pow 2 53 then (Nat.pow 2 52, exponent + 1) else (mantissa, exponent)
  if maxExponent < exponent then infinite negative else finite negative mantissa exponent

/-- Zero with the given sign. -/
def zero (negative : Bool) : Binary64 := finite negative 0 0

/-- How many decimal digits `n` has; zero has none. -/
def digitCount (n : Nat) : Nat := if n = 0 then 0 else (Nat.toDigits 10 n).length

/-- The number nearest to `digits · 10 ^ exponent`. Exponents that put the value far outside the
finite range are decided from the digit count, so that no huge power is computed. -/
def ofDecimal (negative : Bool) (digits : Nat) (exponent : Int) : Binary64 :=
  let top := (digitCount digits : Int) + exponent
  if digits = 0 then zero negative
  else if 400 < top then infinite negative
  else if top < -400 then zero negative
  else match exponent with
    | .ofNat e => ofRatio negative (digits * Nat.pow 10 e) 1
    | .negSucc e => ofRatio negative digits (Nat.pow 10 (e + 1))

/-- The number nearest to an integer. -/
def ofInt (n : Int) : Binary64 := ofRatio (decide (n < 0)) n.natAbs 1

/-! ## Exact comparison -/

/-- The numerator of a finite number over `unitDenominator`. -/
def units (negative : Bool) (mantissa exponent : Nat) : Int :=
  if negative then -((mantissa * Nat.pow 2 exponent : Nat) : Int)
  else ((mantissa * Nat.pow 2 exponent : Nat) : Int)

/-- Whether a number is exactly the integer `n`. -/
def eqInt (x : Binary64) (n : Int) : Bool :=
  match x with
  | finite s m e => units s m e == n * (unitDenominator : Int)
  | _ => false

/-- Whether a number is below the integer `n`. -/
def ltInt (x : Binary64) (n : Int) : Bool :=
  match x with
  | finite s m e => decide (units s m e < n * (unitDenominator : Int))
  | infinite s => s
  | nan => false

/-- Whether the integer `n` is below a number. -/
def intLt (n : Int) (x : Binary64) : Bool :=
  match x with
  | finite s m e => decide (n * (unitDenominator : Int) < units s m e)
  | infinite s => !s
  | nan => false

/-- Numeric equality: the two zeros are equal and NaN equals nothing. -/
def eq (x y : Binary64) : Bool :=
  match x, y with
  | finite s m e, finite s' m' e' => units s m e == units s' m' e'
  | infinite s, infinite s' => s == s'
  | _, _ => false

/-- Numeric order; NaN is neither below nor above anything. -/
def lt (x y : Binary64) : Bool :=
  match x, y with
  | finite s m e, finite s' m' e' => decide (units s m e < units s' m' e')
  | infinite s, infinite s' => s && !s'
  | infinite s, finite .. => s
  | finite .., infinite s => !s
  | _, _ => false

/-- Whether a number counts as zero. -/
def isZero : Binary64 → Bool
  | finite _ m _ => m == 0
  | _ => false

/-- The integer a number is exactly equal to, if there is one. -/
def toInt? (x : Binary64) : Option Int :=
  match x with
  | finite s m e =>
    let n := units s m e
    if n % (unitDenominator : Int) = 0 then some (n / (unitDenominator : Int)) else none
  | _ => none

/-! ## Arithmetic by exact rounding -/

/-- The number nearest to `n / den`, for an exact signed numerator. A zero takes the sign given. -/
def ofSignedRatio (zeroSign : Bool) (n : Int) (den : Nat) : Binary64 :=
  ofRatio (if n = 0 then zeroSign else decide (n < 0)) n.natAbs den

/-- The rounded product of two numbers. -/
def mul (x y : Binary64) : Binary64 :=
  match x, y with
  | nan, _ => nan
  | _, nan => nan
  | infinite s, infinite s' => infinite (s != s')
  | infinite s, finite s' m _ => if m = 0 then nan else infinite (s != s')
  | finite s m _, infinite s' => if m = 0 then nan else infinite (s != s')
  | finite s m e, finite s' m' e' =>
    ofRatio (s != s') (m * Nat.pow 2 e * (m' * Nat.pow 2 e')) (unitDenominator * unitDenominator)

/-- The rounded difference of a number and one. -/
def pred : Binary64 → Binary64
  | finite s m e => ofSignedRatio false (units s m e - (unitDenominator : Int)) unitDenominator
  | x => x

/-- The largest integer not above a finite number. -/
def floor? : Binary64 → Option Int
  | finite s m e => some ((units s m e).fdiv (unitDenominator : Int))
  | _ => none

/-! ## Small facts -/

/-- Rounding moves a quotient by less than one unit up. -/
theorem roundHalfEven_le (num den : Nat) : roundHalfEven num den ≤ num / den + 1 := by
  unfold roundHalfEven
  dsimp only
  split
  · omega
  · split <;> omega

/-- Rounding never goes below the floor. -/
theorem le_roundHalfEven (num den : Nat) : num / den ≤ roundHalfEven num den := by
  unfold roundHalfEven
  dsimp only
  split
  · omega
  · split <;> omega

/-- A quotient without remainder is left alone. -/
theorem roundHalfEven_exact {num den : Nat} (pos : 0 < den) (exact : num % den = 0) :
    roundHalfEven num den = num / den := by
  simp [roundHalfEven, exact, pos]

end Binary64

end AvroRegistry
