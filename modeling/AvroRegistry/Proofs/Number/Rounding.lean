import AvroRegistry.Number.Shortest
import Mathlib.Algebra.Group.Nat.Defs

/-!
# Rounding to the nearest number

What `ofRatio` does, as far as reading and writing decimals depends on it. It gives a number in the
one form that each number has (`ofRatio_normal`), it depends on the value of the quotient alone
(`ofRatio_scale`), and a quotient that lies closer to a number than half the way to its neighbours
is rounded to it (`ofRatio_near`). The neighbour below a power of two is twice as near as the one
above, which is why closeness has a clause of its own for it.

`ofDecimal` depends on the value of the decimal alone: a zero at the end of the digits may be moved
into the exponent (`ofDecimal_zero`). Within the range of exponents where it computes at all, it is
the rounding of one quotient (`ofDecimal_eq`).
-/

namespace AvroRegistry.Binary64

/-! ## The one form of a number -/

/-- Whether a number has the form that the functions of this type give it: the mantissa has
fifty-three bits at most, fewer only on the finest grid, and the exponent is in range. -/
def Normal : Binary64 → Prop
  | finite _ m e => m < 2 ^ 53 ∧ (e = 0 ∨ 2 ^ 52 ≤ m) ∧ e ≤ maxExponent
  | infinite _ => True
  | nan => True

instance : DecidablePred Normal
  | finite _ m e => inferInstanceAs (Decidable (m < 2 ^ 53 ∧ (e = 0 ∨ 2 ^ 52 ≤ m) ∧ _))
  | infinite _ | nan => isTrue trivial

/-! ## Rounding a quotient to an integer -/

/-- An integer that is closer than a half is what a quotient is rounded to. -/
theorem roundHalfEven_near {num den m : Nat} (above : 2 * num < (2 * m + 1) * den)
    (below : 2 * m * den < 2 * num + den) : roundHalfEven num den = m := by
  have pos : 0 < den := by
    rcases Nat.eq_zero_or_pos den with rfl | pos
    · omega
    · exact pos
  have division := Nat.div_add_mod num den
  have small := Nat.mod_lt num pos
  unfold roundHalfEven
  dsimp only
  generalize num / den = q at division ⊢
  generalize num % den = r at division small ⊢
  subst division
  -- `m` is the floor or one more; which of the two is decided by the rest.
  have lower : q ≤ m := by
    refine Nat.le_of_not_lt fun less => ?_
    have : (2 * m + 1) * den ≤ 2 * q * den := Nat.mul_le_mul_right den (by omega)
    have : 2 * q * den = 2 * (den * q) := by grind
    omega
  have upper : m ≤ q + 1 := by
    refine Nat.le_of_not_lt fun more => ?_
    have : (2 * q + 3) * den ≤ 2 * m * den := Nat.mul_le_mul_right den (by omega)
    have : (2 * q + 3) * den = 2 * (den * q) + 3 * den := by grind
    omega
  rcases Nat.eq_or_lt_of_le lower with rfl | more
  · have : (2 * q + 1) * den = 2 * (den * q) + den := by grind
    rw [if_pos (by omega)]
  · obtain rfl : m = q + 1 := by omega
    have : 2 * (q + 1) * den = 2 * (den * q) + 2 * den := by grind
    rw [if_neg (by omega), if_pos (by omega)]

theorem roundHalfEven_scale {c : Nat} (pos : 0 < c) (num den : Nat) :
    roundHalfEven (c * num) (c * den) = roundHalfEven num den := by
  unfold roundHalfEven
  dsimp only
  rw [Nat.mul_div_mul_left _ _ pos, Nat.mul_mod_mul_left, Nat.mul_left_comm]
  simp only [Nat.mul_lt_mul_left pos]

/-! ## Rounding a quotient to a number -/

section

variable {s : Bool} {num den m e : Nat}

/-- The exponent that a quotient is rounded at. -/
def grid (num den : Nat) : Nat := (num * unitDenominator / den).log2 - 52

/-- The mantissa that a quotient is rounded to, before a carry. -/
def mantissa (num den : Nat) : Nat :=
  roundHalfEven (num * unitDenominator) (den * 2 ^ grid num den)

/-- The number with a mantissa that may be one more than fits, and an exponent that may be out of
range. -/
def carried (s : Bool) (m e : Nat) : Binary64 :=
  if m = Nat.pow 2 53 then
    if maxExponent < e + 1 then infinite s else finite s (Nat.pow 2 52) (e + 1)
  else if maxExponent < e then infinite s else finite s m e

theorem carried_of_ne (fits : m ≠ 2 ^ 53) :
    carried s m e = if maxExponent < e then infinite s else finite s m e := if_neg fits

theorem carried_full :
    carried s (2 ^ 53) e =
      if maxExponent < e + 1 then infinite s else finite s (2 ^ 52) (e + 1) := if_pos rfl

theorem carried_eq (s : Bool) (m e : Nat) :
    (match if m = Nat.pow 2 53 then (Nat.pow 2 52, e + 1) else (m, e) with
      | (m, e) => if maxExponent < e then infinite s else finite s m e) = carried s m e := by
  unfold carried
  by_cases full : m = Nat.pow 2 53
  · rw [if_pos full, if_pos full]
  · rw [if_neg full, if_neg full]

/-- Rounding in terms of grid and mantissa. The smallest number has to be generalized first: its
power is never to be computed. -/
theorem ofRatio_fun : ofRatio = fun s num den => carried s (mantissa num den) (grid num den) := by
  delta ofRatio mantissa grid
  generalize unitDenominator = unit
  funext s num den
  exact carried_eq s _ _

theorem ofRatio_eq (s : Bool) (num den : Nat) :
    ofRatio s num den = carried s (mantissa num den) (grid num den) := by
  rw [ofRatio_fun]

/-- The mantissa that a quotient is rounded to has fifty-three bits, but for a carry. -/
theorem mantissa_le (num den : Nat) : mantissa num den ≤ 2 ^ 53 := by
  have round := roundHalfEven_le (num * unitDenominator) (den * 2 ^ grid num den)
  rw [← Nat.div_div_eq_div_mul] at round
  have bits := @Nat.lt_log2_self (num * unitDenominator / den)
  have within : (num * unitDenominator / den).log2 + 1 ≤ 53 + grid num den := by
    unfold grid
    omega
  have floor : num * unitDenominator / den / 2 ^ grid num den < 2 ^ 53 := by
    rw [Nat.div_lt_iff_lt_mul (Nat.pow_pos Nat.zero_lt_two), ← Nat.pow_add]
    exact Nat.lt_of_lt_of_le bits (Nat.pow_le_pow_right Nat.zero_lt_two within)
  unfold mantissa
  omega

/-- Off the finest grid it has no fewer. -/
theorem le_mantissa (coarse : 0 < grid num den) : 2 ^ 52 ≤ mantissa num den := by
  have round := le_roundHalfEven (num * unitDenominator) (den * 2 ^ grid num den)
  rw [← Nat.div_div_eq_div_mul] at round
  have within : 52 + grid num den = (num * unitDenominator / den).log2 := by
    unfold grid at coarse ⊢
    omega
  have some : num * unitDenominator / den ≠ 0 := by
    intro none
    rw [none, Nat.log2_zero] at within
    omega
  have floor : 2 ^ 52 ≤ num * unitDenominator / den / 2 ^ grid num den := by
    rw [Nat.le_div_iff_mul_le (Nat.pow_pos Nat.zero_lt_two), ← Nat.pow_add, within]
    exact Nat.log2_self_le some
  exact Nat.le_trans floor round

/-- A mantissa that fits, or nearly, and has all its bits off the finest grid is carried to the form
of a number. -/
theorem carried_normal (bounded : m ≤ 2 ^ 53) (coarse : 0 < e → 2 ^ 52 ≤ m) :
    (carried s m e).Normal := by
  by_cases full : m = 2 ^ 53
  · subst full
    rw [carried_full]
    split
    · trivial
    · exact ⟨by decide, .inr (Nat.le_refl _), by omega⟩
  · rw [carried_of_ne full]
    split
    · trivial
    · refine ⟨by omega, ?_, by omega⟩
      rcases Nat.eq_zero_or_pos e with fine | some
      · exact .inl fine
      · exact .inr (coarse some)

/-- A rounded quotient has the form of a number. -/
theorem ofRatio_normal (s : Bool) (num den : Nat) : (ofRatio s num den).Normal := by
  rw [ofRatio_eq]
  exact carried_normal (mantissa_le num den) le_mantissa

/-- The sign goes through rounding as it is. -/
theorem carried_signed {m' e' : Nat} (read : carried false m e = finite false m' e') (s : Bool) :
    carried s m e = finite s m' e' := by
  unfold carried at read ⊢
  split at read
  · split at read
    · cases read
    · next full fits =>
      cases read
      rw [if_pos full, if_neg fits]
  · split at read
    · cases read
    · next short fits =>
      cases read
      rw [if_neg short, if_neg fits]

theorem ofRatio_signed (read : ofRatio false num den = finite false m e) (s : Bool) :
    ofRatio s num den = finite s m e := by
  rw [ofRatio_eq] at read ⊢
  exact carried_signed read s

/-- Rounding depends on the value of a quotient alone. -/
theorem ofRatio_scale {c : Nat} (pos : 0 < c) (s : Bool) (num den : Nat) :
    ofRatio s (c * num) (c * den) = ofRatio s num den := by
  have grids : grid (c * num) (c * den) = grid num den := by
    unfold grid
    rw [Nat.mul_assoc, Nat.mul_div_mul_left _ _ pos]
  have mantissas : mantissa (c * num) (c * den) = mantissa num den := by
    unfold mantissa
    rw [grids, Nat.mul_assoc, Nat.mul_assoc, roundHalfEven_scale pos]
  rw [ofRatio_eq, ofRatio_eq, grids, mantissas]

/-! ## Quotients near a number -/

/-- The grid of a quotient whose floor has the bits of that grid. -/
theorem grid_eq (pos : 0 < den) (lower : 2 ^ 52 * (den * 2 ^ e) ≤ num * unitDenominator)
    (upper : num * unitDenominator < 2 ^ 53 * (den * 2 ^ e)) : grid num den = e := by
  have floor : 2 ^ (52 + e) ≤ num * unitDenominator / den := by
    rw [Nat.le_div_iff_mul_le pos, Nat.pow_add]
    grind
  have ceiling : num * unitDenominator / den < 2 ^ (52 + e + 1) := by
    rw [Nat.div_lt_iff_lt_mul pos, Nat.add_right_comm, Nat.pow_add]
    grind
  have some : num * unitDenominator / den ≠ 0 := by
    have : 0 < 2 ^ (52 + e) := Nat.pow_pos Nat.zero_lt_two
    omega
  have bits := (Nat.log2_eq_iff some).2 ⟨floor, ceiling⟩
  unfold grid
  omega

/-- The finest grid is that of all quotients up to where the next one begins. -/
theorem grid_zero (pos : 0 < den) (upper : num * unitDenominator < 2 ^ 53 * den) :
    grid num den = 0 := by
  have floor : num * unitDenominator / den < 2 ^ 53 := (Nat.div_lt_iff_lt_mul pos).2 upper
  unfold grid
  rcases Nat.eq_zero_or_pos (num * unitDenominator / den) with none | some
  · rw [none, Nat.log2_zero]
  · have := (Nat.log2_lt (Nat.ne_of_gt some)).2 floor
    omega

/-- Whether a quotient lies closer to a number than half the way to each of its neighbours, in
multiples of the smallest number. -/
structure Near (num den m e : Nat) : Prop where
  above : 2 * (num * unitDenominator) < (2 * m + 1) * (den * 2 ^ e)
  below : 2 * m * (den * 2 ^ e) < 2 * (num * unitDenominator) + den * 2 ^ e
  boundary : m = 2 ^ 52 → 4 * m * (den * 2 ^ e) < 4 * (num * unitDenominator) + den * 2 ^ e

/-- A quotient below a power of two is rounded on the grid below the one of the power, and carries.
-/
theorem ofRatio_boundary (pos : 0 < den) (fits : e + 1 ≤ maxExponent)
    (less : num * unitDenominator < 2 ^ 52 * (den * 2 ^ (e + 1)))
    (close : 4 * 2 ^ 52 * (den * 2 ^ (e + 1)) < 4 * (num * unitDenominator) + den * 2 ^ (e + 1)) :
    ofRatio s num den = finite s (2 ^ 52) (e + 1) := by
  have half : den * 2 ^ (e + 1) = 2 * (den * 2 ^ e) := by
    rw [Nat.pow_succ]
    grind
  have width : 0 < den * 2 ^ e := Nat.mul_pos pos (Nat.pow_pos Nat.zero_lt_two)
  rw [half] at less close
  have below : grid num den = e := grid_eq pos (by omega) (by omega)
  have carry : mantissa num den = 2 ^ 53 := by
    unfold mantissa
    rw [below]
    exact roundHalfEven_near (by omega) (by omega)
  rw [ofRatio_eq, carry, carried_full, below, if_neg (by omega)]

/-- A quotient near a number is rounded to it. -/
theorem ofRatio_near (normal : (finite s m e).Normal) (near : Near num den m e) :
    ofRatio s num den = finite s m e := by
  obtain ⟨above, below, boundary⟩ := near
  obtain ⟨small, coarse, fits⟩ := normal
  have pos : 0 < den := by
    rcases Nat.eq_zero_or_pos den with rfl | pos
    · simp at above
    · exact pos
  have whole : grid num den = e → ofRatio s num den = finite s m e := by
    intro on
    have rounded : mantissa num den = m := by
      unfold mantissa
      rw [on]
      exact roundHalfEven_near above below
    rw [ofRatio_eq, rounded, on, carried_of_ne (by omega), if_neg (by omega)]
  have ceiling : num * unitDenominator < 2 ^ 53 * (den * 2 ^ e) := by
    have : (2 * m + 1) * (den * 2 ^ e) ≤ 2 ^ 54 * (den * 2 ^ e) :=
      Nat.mul_le_mul_right _ (by omega)
    omega
  rcases e with _ | e
  · refine whole (grid_zero pos ?_)
    simpa using ceiling
  · have large : 2 ^ 52 ≤ m := coarse.resolve_left (by omega)
    by_cases inside : 2 ^ 52 * (den * 2 ^ (e + 1)) ≤ num * unitDenominator
    · exact whole (grid_eq pos inside ceiling)
    · have power : m = 2 ^ 52 := by
        refine Nat.le_antisymm (Nat.le_of_not_lt fun more => ?_) large
        have : (2 ^ 53 + 2) * (den * 2 ^ (e + 1)) ≤ 2 * m * (den * 2 ^ (e + 1)) :=
          Nat.mul_le_mul_right _ (by omega)
        omega
      subst power
      exact ofRatio_boundary pos fits (by omega) (boundary rfl)

end

/-! ## Decimals -/

theorem digitCount_le_iff {n k : Nat} : digitCount n ≤ k ↔ n < 10 ^ k := by
  unfold digitCount
  split
  · next none =>
    subst none
    exact iff_of_true (Nat.zero_le k) (Nat.pow_pos (by decide))
  · next some =>
    rcases Nat.eq_zero_or_pos k with rfl | pos
    · have := Nat.length_toDigits_pos (b := 10) (n := n)
      rw [Nat.pow_zero]
      omega
    · exact Nat.length_toDigits_le_iff (by decide) pos

theorem digitCount_pos {n : Nat} (pos : 0 < n) : 0 < digitCount n := by
  refine Nat.pos_of_ne_zero fun none => ?_
  have := digitCount_le_iff.1 (Nat.le_of_eq none)
  omega

/-- A number with `n` digits is at least the power of ten that begins them. -/
theorem pow_digitCount_le {n : Nat} (pos : 0 < n) : 10 ^ (digitCount n - 1) ≤ n := by
  refine Nat.le_of_not_lt fun less => ?_
  have fewer := digitCount_le_iff.2 less
  have some := digitCount_pos pos
  omega

theorem digitCount_zero_behind {n : Nat} (pos : 0 < n) :
    digitCount (10 * n) = digitCount n + 1 := by
  have shift (k : Nat) : digitCount (10 * n) ≤ k + 1 ↔ digitCount n ≤ k := by
    rw [digitCount_le_iff, digitCount_le_iff, Nat.pow_succ, Nat.mul_comm, Nat.mul_lt_mul_right]
    decide
  have some := digitCount_pos (n := 10 * n) (by omega)
  have upper := (shift (digitCount n)).2 (Nat.le_refl _)
  have lower := (shift (digitCount (10 * n) - 1)).1 (by omega)
  omega

/-- The quotient that a decimal is. -/
theorem ofDecimal_eq {digits : Nat} {exponent : Int} (some : 0 < digits)
    (lower : -400 ≤ digitCount digits + exponent) (upper : digitCount digits + exponent ≤ 400)
    (s : Bool) : ofDecimal s digits exponent =
      ofRatio s (digits * 10 ^ exponent.toNat) (10 ^ (-exponent).toNat) := by
  unfold ofDecimal
  dsimp only
  rw [if_neg (by omega), if_neg (by omega), if_neg (by omega)]
  cases exponent with
  | ofNat e =>
    have numerator : (Int.ofNat e).toNat = e := rfl
    have denominator : (-Int.ofNat e).toNat = 0 := Int.toNat_neg_natCast e
    dsimp only
    rw [numerator, denominator, Nat.pow_zero, Nat.pow_eq]
  | negSucc e =>
    have denominator : (-Int.negSucc e).toNat = e + 1 := rfl
    dsimp only
    rw [denominator, Int.toNat_negSucc, Nat.pow_zero, Nat.mul_one, Nat.pow_eq]

/-- What is read from a decimal has the form of a number. -/
theorem ofDecimal_normal (s : Bool) (digits : Nat) (exponent : Int) :
    (ofDecimal s digits exponent).Normal := by
  have zero : (zero s).Normal := ⟨by decide, .inl rfl, by decide⟩
  unfold ofDecimal
  dsimp only
  split
  · exact zero
  split
  · trivial
  split
  · exact zero
  split
  · exact ofRatio_normal _ _ _
  · exact ofRatio_normal _ _ _

/-- A zero at the end of the digits may be moved into the exponent. -/
theorem ofDecimal_zero (s : Bool) (digits : Nat) (exponent : Int) :
    ofDecimal s (10 * digits) exponent = ofDecimal s digits (exponent + 1) := by
  rcases Nat.eq_zero_or_pos digits with rfl | some
  · rfl
  have top : (digitCount (10 * digits) : Int) + exponent = digitCount digits + (exponent + 1) := by
    rw [digitCount_zero_behind some]
    omega
  by_cases range : -400 ≤ digitCount digits + (exponent + 1) ∧
      digitCount digits + (exponent + 1) ≤ 400
  · obtain ⟨lower, upper⟩ := range
    rw [ofDecimal_eq (by omega) (by omega) (by omega), ofDecimal_eq some lower upper]
    cases exponent with
    | ofNat e =>
      have numerator : 10 * digits * 10 ^ (Int.ofNat e).toNat =
          digits * 10 ^ (Int.ofNat e + 1).toNat := by
        have this : (Int.ofNat e).toNat = e := rfl
        have next : (Int.ofNat e + 1).toNat = e + 1 := rfl
        rw [this, next, Nat.pow_succ]
        grind
      have denominator : (-Int.ofNat e).toNat = (-(Int.ofNat e + 1)).toNat :=
        (Int.toNat_neg_natCast e).trans (Int.toNat_neg_natCast (e + 1)).symm
      rw [numerator, denominator]
    | negSucc e =>
      have denominator : 10 ^ (-Int.negSucc e).toNat = 10 * 10 ^ (-(Int.negSucc e + 1)).toNat := by
        rw [← Nat.pow_succ']
        congr 1
        omega
      have whole : (Int.negSucc e + 1).toNat = 0 := by omega
      rw [denominator, whole, Int.toNat_negSucc, Nat.pow_zero, Nat.mul_one, Nat.mul_one,
        ofRatio_scale (by decide)]
  · unfold ofDecimal
    dsimp only
    rw [top, if_neg (show 10 * digits ≠ 0 by omega), if_neg (show digits ≠ 0 by omega)]
    by_cases large : 400 < (digitCount digits : Int) + (exponent + 1)
    · rw [if_pos large, if_pos large]
    · rw [if_neg large, if_neg large, if_pos (by omega), if_pos (by omega)]

/-- So may any number of them. -/
theorem ofDecimal_zeros (s : Bool) (digits : Nat) (exponent : Int) (n : Nat) :
    ofDecimal s (digits * 10 ^ n) exponent = ofDecimal s digits (exponent + n) := by
  induction n generalizing exponent with
  | zero => rw [Nat.pow_zero, Nat.mul_one, Int.natCast_zero, Int.add_zero]
  | succ n ih =>
    rw [Nat.pow_succ, ← Nat.mul_assoc, Nat.mul_comm, ofDecimal_zero, ih]
    congr 1
    omega

end AvroRegistry.Binary64
