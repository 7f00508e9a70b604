import AvroRegistry.Number.Binary64

/-!
# The decimal text of a binary64 number

`Binary64.shortest` finds the fewest decimal digits that read back as the same number and, of
those, the digits nearest to it, a tie going to the even last digit; `Binary64.rounded` gives a
fixed number of digits. `Binary64.render` lays them out under a `NumberStyle`, a record of the
decisions that are a matter of format: how many digits there are, where positional notation ends,
how an exponent is written, and what stands for infinity and NaN.

The search tries one to seventeen digits. On each decimal grid only the two neighbours of the
number can be nearest, so only those are read back.
-/

namespace AvroRegistry

namespace Binary64

/-! ## Digits -/

/-- A decimal `digits · 10 ^ exponent`. -/
structure Decimal where
  digits : Nat
  exponent : Int
  deriving DecidableEq, Repr, Inhabited

/-- The quotient `num / den` over `10 ^ k`, as a quotient of natural numbers. -/
def scaleDown (num den : Nat) (k : Int) : Nat × Nat :=
  match k with
  | .ofNat k => (num, den * Nat.pow 10 k)
  | .negSucc k => (num * Nat.pow 10 (k + 1), den)

/-- The exponent of the leading decimal digit of the positive quotient `num / den`. -/
def leadingExponent (num den : Nat) : Int :=
  if den ≤ num then (digitCount (num / den) : Int) - 1
  else -((digitCount ((den + num - 1) / num - 1) : Nat) : Int)

/-- The neighbours of a positive quotient on the grid of multiples of `10 ^ k` that read back as
the number `x`, the nearer one if both do and the even one if they are equally near. -/
def onGrid (x : Binary64) (num den : Nat) (k : Int) : Option Decimal :=
  let (a, b) := scaleDown num den k
  let floor := a / b
  let rest := 2 * (a % b)
  let reads (d : Nat) : Bool := decide (ofDecimal false d k = x)
  let below := reads floor
  let above := reads (floor + 1)
  if below && above then
    some ⟨if rest < b then floor else if b < rest then floor + 1 else floor + floor % 2, k⟩
  else if below then some ⟨floor, k⟩
  else if above then some ⟨floor + 1, k⟩
  else none

/-- The same decimal without zeros at the end of its digits; `fuel` bounds how many are dropped. -/
def dropZeros : Nat → Decimal → Decimal
  | 0, d => d
  | fuel + 1, d =>
    if d.digits % 10 = 0 ∧ d.digits ≠ 0 then dropZeros fuel ⟨d.digits / 10, d.exponent + 1⟩ else d

/-- The first hit on the grids of `count`, `count + 1`, … digits, at most `tries` of them. -/
def searchGrids (x : Binary64) (num den : Nat) (top : Int) : Nat → Nat → Option Decimal
  | 0, _ => none
  | tries + 1, count =>
    match onGrid x num den (top - (count : Int) + 1) with
    | some d => some d
    | none => searchGrids x num den top tries (count + 1)

/-- The shortest decimal that reads back as the positive number with this mantissa and exponent. -/
def shortest (mantissa exponent : Nat) : Decimal :=
  let num := mantissa * Nat.pow 2 exponent
  let den := unitDenominator
  dropZeros 17
    ((searchGrids (finite false mantissa exponent) num den (leadingExponent num den) 17 1).getD
      ⟨0, 0⟩)

/-- The decimal with the given number of digits that is nearest to the positive number with this
mantissa and exponent; a half is rounded up. -/
def rounded (count mantissa exponent : Nat) : Decimal :=
  let num := mantissa * Nat.pow 2 exponent
  let den := unitDenominator
  let k := leadingExponent num den - (count : Int) + 1
  let (a, b) := scaleDown num den k
  dropZeros (count + 1) ⟨(2 * a + b) / (2 * b), k⟩

/-! ## Layout -/

/-- How numbers are written: with the fewest digits that read back or with a fixed number of them,
positionally while the exponent of the leading digit is within the two bounds. The words stand for
the values that have no digits. -/
structure NumberStyle where
  digitCount : Option Nat := none
  lowestPositional : Int := -4
  highestPositional : Int := 15
  /-- Whether a single digit in front of an exponent is followed by `.0`. -/
  pointBeforeExponent : Bool := false
  /-- Whether a zero below zero is written with its sign. -/
  signOfZero : Bool := true
  infinity : String
  notANumber : String

/-- Decimal digits of a positive number as characters. -/
def digitChars (n : Nat) : List Char := Nat.toDigits 10 n

/-- An exponent with its sign and at least two digits. -/
def exponentChars (e : Int) : List Char :=
  let digits := digitChars e.natAbs
  (if e < 0 then '-' else '+') :: (if digits.length < 2 then '0' :: digits else digits)

/-- Digits laid out positionally, with `.0` after an integral value. -/
def positional (digits : List Char) (leading : Int) : List Char :=
  if leading < 0 then
    '0' :: '.' :: (List.replicate (leading.natAbs - 1) '0' ++ digits)
  else
    let whole := leading.natAbs + 1
    if digits.length ≤ whole then
      digits ++ List.replicate (whole - digits.length) '0' ++ ['.', '0']
    else digits.take whole ++ '.' :: digits.drop whole

/-- Digits laid out with an exponent. -/
def scientific (pointed : Bool) (digits : List Char) (leading : Int) : List Char :=
  match digits with
  | [] => []
  | [d] => d :: ((if pointed then ['.', '0'] else []) ++ 'e' :: exponentChars leading)
  | d :: rest => d :: '.' :: (rest ++ 'e' :: exponentChars leading)

/-- The text of a number in the given style. -/
def render (style : NumberStyle) : Binary64 → String
  | nan => style.notANumber
  | infinite negative => (if negative then "-" else "") ++ style.infinity
  | finite negative mantissa exponent =>
    let sign := if negative then ['-'] else []
    if mantissa = 0 then
      String.ofList ((if style.signOfZero then sign else []) ++ ['0', '.', '0'])
    else
      let d := match style.digitCount with
        | some count => rounded count mantissa exponent
        | none => shortest mantissa exponent
      let digits := digitChars d.digits
      let leading := d.exponent + (digits.length : Int) - 1
      String.ofList (sign ++
        (if style.lowestPositional ≤ leading ∧ leading ≤ style.highestPositional then
          positional digits leading
        else scientific style.pointBeforeExponent digits leading))

end Binary64

end AvroRegistry
