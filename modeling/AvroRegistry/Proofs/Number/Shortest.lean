import AvroRegistry.Proofs.Number.Rounding

/-!
# The shortest decimal reads back

`shortest` gives a decimal that reads back as the number it is for (`shortest_reads`). Whatever grid
the search stops at, it has read the decimal back; what has to be shown is that it stops at all. On
the grid of seventeen digits the decimal nearest to a number is off by less than the half of
`10 ^ -16` of the number, and the number is off from its neighbours by more than that twice over,
because `2 ^ 53` is less than `10 ^ 16` (`nearest_reads`).
-/

namespace AvroRegistry.Binary64

/-! ## The leading digit -/

/-- The exponent of the leading digit: the quotient is between its power of ten and the next. -/
theorem leadingExponent_spec {num den : Nat} (some : 0 < num) (pos : 0 < den) :
    den * 10 ^ (leadingExponent num den).toNat ≤ num * 10 ^ (-leadingExponent num den).toNat ∧
      num * 10 ^ (-leadingExponent num den).toNat <
        10 * (den * 10 ^ (leadingExponent num den).toNat) := by
  unfold leadingExponent
  split
  · next whole =>
    have floor : 0 < num / den := Nat.div_pos whole pos
    have digits := digitCount_pos floor
    obtain ⟨n, count⟩ : ∃ n, digitCount (num / den) = n + 1 :=
      ⟨digitCount (num / den) - 1, by omega⟩
    have lower := pow_digitCount_le floor
    have upper := digitCount_le_iff.1 (Nat.le_refl (digitCount (num / den)))
    rw [count] at lower upper ⊢
    have up : ((n + 1 : Nat) - 1 : Int).toNat = n := by omega
    have down : (-((n + 1 : Nat) - 1 : Int)).toNat = 0 := by omega
    rw [up, down, Nat.pow_zero, Nat.mul_one]
    rw [Nat.add_sub_cancel, Nat.le_div_iff_mul_le pos] at lower
    rw [Nat.div_lt_iff_lt_mul pos, Nat.pow_succ] at upper
    constructor
    · rwa [Nat.mul_comm]
    · grind
  · next part =>
    have less : num < den := Nat.lt_of_not_le part
    generalize ceiling : (den + num - 1) / num = c
    have two : 2 ≤ c := by
      rw [← ceiling, Nat.le_div_iff_mul_le some]
      omega
    have under : 0 < c - 1 := by omega
    have digits := digitCount_pos under
    obtain ⟨n, count⟩ : ∃ n, digitCount (c - 1) = n + 1 := ⟨digitCount (c - 1) - 1, by omega⟩
    have lower := pow_digitCount_le under
    have upper := digitCount_le_iff.1 (Nat.le_refl (digitCount (c - 1)))
    rw [count] at lower upper ⊢
    have up : (-((n + 1 : Nat) : Int)).toNat = 0 := by omega
    have down : (- -((n + 1 : Nat) : Int)).toNat = n + 1 := by omega
    rw [up, down, Nat.pow_zero, Nat.mul_one]
    rw [Nat.add_sub_cancel] at lower
    have reached : (10 ^ n + 1) * num ≤ den + num - 1 := by
      rw [← Nat.le_div_iff_mul_le some, ceiling]
      omega
    have bounded : den + num - 1 < (10 ^ (n + 1) + 1) * num := by
      rw [← Nat.div_lt_iff_lt_mul some, ceiling]
      omega
    rw [Nat.add_mul, Nat.one_mul] at reached bounded
    have power : num * 10 ^ (n + 1) = 10 * (10 ^ n * num) := by
      rw [Nat.pow_succ]
      grind
    rw [Nat.mul_comm] at bounded
    constructor
    · omega
    · omega

theorem unitDenominator_eq : unitDenominator = 2 ^ 1074 := by
  unfold unitDenominator
  generalize 1074 = n
  exact Nat.pow_eq

theorem unitDenominator_pos : 0 < unitDenominator := by
  rw [unitDenominator_eq]
  exact Nat.two_pow_pos 1074

theorem two_pow_le_ten_pow (n : Nat) : 2 ^ (3 * n) ≤ 10 ^ n := by
  rw [Nat.pow_mul]
  exact Nat.pow_le_pow_left (by decide) n

/-- The exponent of the leading digit of a quotient with `n` binary places, in terms of bits: the
numerator is not zero, and has `b` of them at most. -/
theorem leadingExponent_range {num den n b : Nat} (power : den = 2 ^ n) (some : 0 < num)
    (bounded : num < 2 ^ b) : -(4 + n : Int) < 3 * leadingExponent num den ∧
      (leadingExponent num den < 0 ∨ n + 3 * leadingExponent num den < b) := by
  subst power
  obtain ⟨lower, upper⟩ := leadingExponent_spec some (Nat.two_pow_pos n)
  generalize leadingExponent num (2 ^ n) = t at lower upper ⊢
  rcases Int.lt_or_le t 0 with below | above
  · refine ⟨?_, .inl below⟩
    have none : t.toNat = 0 := by omega
    rw [none, Nat.pow_zero, Nat.mul_one] at upper
    have powers : 2 ^ (3 * (-t).toNat) < 2 ^ (4 + n) :=
      calc 2 ^ (3 * (-t).toNat) ≤ 10 ^ (-t).toNat := two_pow_le_ten_pow _
        _ ≤ num * 10 ^ (-t).toNat := Nat.le_mul_of_pos_left _ some
        _ < 10 * 2 ^ n := upper
        _ ≤ 2 ^ 4 * 2 ^ n := Nat.mul_le_mul_right _ (by decide)
        _ = 2 ^ (4 + n) := (Nat.pow_add 2 4 n).symm
    have := (Nat.pow_lt_pow_iff_right (by decide)).1 powers
    omega
  · refine ⟨by omega, .inr ?_⟩
    have none : (-t).toNat = 0 := by omega
    rw [none, Nat.pow_zero, Nat.mul_one] at lower
    have powers : 2 ^ (n + 3 * t.toNat) < 2 ^ b :=
      calc 2 ^ (n + 3 * t.toNat) = 2 ^ n * 2 ^ (3 * t.toNat) := Nat.pow_add 2 n _
        _ ≤ 2 ^ n * 10 ^ t.toNat := Nat.mul_le_mul_left _ (two_pow_le_ten_pow _)
        _ ≤ num := lower
        _ < 2 ^ b := bounded
    have := (Nat.pow_lt_pow_iff_right (by decide)).1 powers
    omega

/-! ## Seventeen digits -/

section

variable {s : Bool} {m e : Nat}

/-- A decimal that is as near to a number as the grid allows reads back as it, if the number has
seventeen digits on that grid. -/
theorem nearest_reads (normal : (finite s m e).Normal) {digits : Nat} {exponent : Int}
    (precise : 10 ^ 16 * (unitDenominator * 10 ^ exponent.toNat) ≤
      m * 2 ^ e * 10 ^ (-exponent).toNat)
    (above : 2 * (digits * (unitDenominator * 10 ^ exponent.toNat)) ≤
      2 * (m * 2 ^ e * 10 ^ (-exponent).toNat) + unitDenominator * 10 ^ exponent.toNat)
    (below : 2 * (m * 2 ^ e * 10 ^ (-exponent).toNat) ≤
      2 * (digits * (unitDenominator * 10 ^ exponent.toNat)) +
        unitDenominator * 10 ^ exponent.toNat)
    (lower : -400 ≤ 1 + exponent) (upper : digitCount digits + exponent ≤ 400) :
    ofDecimal s digits exponent = finite s m e := by
  have step : 0 < unitDenominator * 10 ^ exponent.toNat :=
    Nat.mul_pos unitDenominator_pos (Nat.pow_pos (by decide))
  have some : 0 < digits := by
    refine Nat.pos_of_ne_zero fun none => ?_
    rw [none] at below
    omega
  have first := digitCount_pos some
  rw [ofDecimal_eq some (by omega) upper]
  -- In multiples of the smallest number, over the denominator of the decimal: `m` widths of a grid
  -- are the number, and `digits` steps are the decimal.
  have number : m * 2 ^ e * 10 ^ (-exponent).toNat = m * (10 ^ (-exponent).toNat * 2 ^ e) := by
    grind
  have decimal : digits * 10 ^ exponent.toNat * unitDenominator =
      digits * (unitDenominator * 10 ^ exponent.toNat) := by
    grind
  have double : 2 * m * (10 ^ (-exponent).toNat * 2 ^ e) =
      2 * (m * (10 ^ (-exponent).toNat * 2 ^ e)) := by
    grind
  have odd : (2 * m + 1) * (10 ^ (-exponent).toNat * 2 ^ e) =
      2 * (m * (10 ^ (-exponent).toNat * 2 ^ e)) + 10 ^ (-exponent).toNat * 2 ^ e := by
    grind
  have bits : m * (10 ^ (-exponent).toNat * 2 ^ e) ≤
      (2 ^ 53 - 1) * (10 ^ (-exponent).toNat * 2 ^ e) :=
    Nat.mul_le_mul_right _ (Nat.le_sub_one_of_lt normal.1)
  rw [number] at precise above below
  refine ofRatio_near normal ⟨?_, ?_, ?_⟩
  · rw [decimal, odd]
    omega
  · rw [decimal, double]
    omega
  · intro power
    rw [decimal]
    subst power
    omega

end

/-! ## The search -/

section

variable {x : Binary64} {num den : Nat}

/-- The numerator and the denominator of a quotient in steps of a grid. -/
theorem scaleDown_eq (num den : Nat) (k : Int) :
    scaleDown num den k = (num * 10 ^ (-k).toNat, den * 10 ^ k.toNat) := by
  cases k with
  | ofNat k =>
    have none : (-Int.ofNat k).toNat = 0 := Int.toNat_neg_natCast k
    rw [none, Nat.pow_zero, Nat.mul_one]
    rfl
  | negSucc k =>
    rw [Int.toNat_negSucc, Nat.pow_zero, Nat.mul_one]
    rfl

/-- What is found on a grid reads back. -/
theorem onGrid_reads {k : Int} {d : Decimal} (hit : onGrid x num den k = some d) :
    ofDecimal false d.digits d.exponent = x := by
  unfold onGrid at hit
  dsimp only at hit
  generalize (scaleDown num den k).1 = a at hit
  generalize (scaleDown num den k).2 = b at hit
  split at hit
  · next both =>
    rw [Bool.and_eq_true, decide_eq_true_iff, decide_eq_true_iff] at both
    cases hit
    dsimp only
    split
    · exact both.1
    · split
      · exact both.2
      · rcases Nat.mod_two_eq_zero_or_one (a / b) with even | odd
        · rw [even]
          exact both.1
        · rw [odd]
          exact both.2
  · split at hit
    · next below =>
      cases hit
      exact of_decide_eq_true below
    · split at hit
      · next above =>
        cases hit
        exact of_decide_eq_true above
      · cases hit

/-- Something is found on a grid if the neighbour below or above reads back. -/
theorem onGrid_isSome {k : Int} {floor : Nat}
    (at_ : (scaleDown num den k).1 / (scaleDown num den k).2 = floor)
    (reads : ofDecimal false floor k = x ∨ ofDecimal false (floor + 1) k = x) :
    (onGrid x num den k).isSome := by
  unfold onGrid
  dsimp only
  rw [at_]
  split
  · rfl
  · split
    · rfl
    · next notBelow =>
      split
      · rfl
      · next notAbove =>
        rw [decide_eq_true_iff] at notBelow notAbove
        exact (reads.elim notBelow notAbove).elim

/-- The search finds a decimal that reads back if one of the grids it tries has one. -/
theorem searchGrids_reads {top : Int} {n : Nat}
    (hit : (onGrid x num den (top - (n : Int) + 1)).isSome) (tries : Nat) :
    ∀ count ≤ n, n < count + tries → ∃ d, searchGrids x num den top tries count = some d ∧
      ofDecimal false d.digits d.exponent = x := by
  induction tries with
  | zero =>
    intro count before within
    omega
  | succ tries ih =>
    intro count before within
    rw [searchGrids]
    cases found : onGrid x num den (top - (count : Int) + 1) with
    | some d => exact ⟨d, rfl, onGrid_reads found⟩
    | none =>
      have other : count ≠ n := by
        rintro rfl
        rw [found] at hit
        cases hit
      exact ih (count + 1) (by omega) (by omega)

/-- Dropping zeros from the end of the digits does not change what is read. -/
theorem dropZeros_reads (s : Bool) (fuel : Nat) (d : Decimal) :
    ofDecimal s (dropZeros fuel d).digits (dropZeros fuel d).exponent =
      ofDecimal s d.digits d.exponent := by
  induction fuel generalizing d with
  | zero => rfl
  | succ fuel ih =>
    rw [dropZeros]
    split
    · next zero =>
      have digits : d.digits = 10 * (d.digits / 10) := by omega
      rw [ih, ← ofDecimal_zero, ← digits]
    · rfl

end

/-! ## Reading back -/

section

variable {m e : Nat}

/-- A quotient has seventeen digits on the grid that is sixteen places below its leading one. -/
theorem seventeen_digits {num den : Nat} (some : 0 < num) (pos : 0 < den) {k : Int}
    (grid : k = leadingExponent num den - 16) :
    10 ^ 16 * (den * 10 ^ k.toNat) ≤ num * 10 ^ (-k).toNat ∧
      num * 10 ^ (-k).toNat < 10 ^ 17 * (den * 10 ^ k.toNat) := by
  obtain ⟨lower, upper⟩ := leadingExponent_spec some pos
  generalize leadingExponent num den = t at grid lower upper
  -- The powers of ten of both exponents, on a common denominator.
  have places : 16 + k.toNat + (-t).toNat = t.toNat + (-k).toNat := by omega
  have powers : 10 ^ 16 * 10 ^ k.toNat * 10 ^ (-t).toNat = 10 ^ t.toNat * 10 ^ (-k).toNat := by
    rw [← Nat.pow_add, ← Nat.pow_add, ← Nat.pow_add, places]
  have common : 0 < 10 ^ (-t).toNat := Nat.pow_pos (by decide)
  have other : 0 < 10 ^ (-k).toNat := Nat.pow_pos (by decide)
  constructor
  · refine Nat.le_of_mul_le_mul_right ?_ common
    calc 10 ^ 16 * (den * 10 ^ k.toNat) * 10 ^ (-t).toNat
        = den * (10 ^ 16 * 10 ^ k.toNat * 10 ^ (-t).toNat) := by grind
      _ = den * 10 ^ t.toNat * 10 ^ (-k).toNat := by rw [powers, Nat.mul_assoc]
      _ ≤ num * 10 ^ (-t).toNat * 10 ^ (-k).toNat := Nat.mul_le_mul_right _ lower
      _ = num * 10 ^ (-k).toNat * 10 ^ (-t).toNat := Nat.mul_right_comm _ _ _
  · refine Nat.lt_of_mul_lt_mul_right (a := 10 ^ (-t).toNat) ?_
    calc num * 10 ^ (-k).toNat * 10 ^ (-t).toNat
        = num * 10 ^ (-t).toNat * 10 ^ (-k).toNat := Nat.mul_right_comm _ _ _
      _ < 10 * (den * 10 ^ t.toNat) * 10 ^ (-k).toNat := Nat.mul_lt_mul_of_pos_right upper other
      _ = 10 * den * (10 ^ t.toNat * 10 ^ (-k).toNat) := by grind
      _ = 10 * den * (10 ^ 16 * 10 ^ k.toNat * 10 ^ (-t).toNat) := by rw [powers]
      _ = 10 ^ 17 * (den * 10 ^ k.toNat) * 10 ^ (-t).toNat := by grind

/-- On the grid of seventeen digits one of the neighbours of a number reads back as it. -/
theorem onGrid_seventeen (normal : (finite false m e).Normal) (some : 0 < m) {k : Int}
    (grid : k = leadingExponent (m * 2 ^ e) unitDenominator - 16) :
    (onGrid (finite false m e) (m * 2 ^ e) unitDenominator k).isSome := by
  have positive : 0 < m * 2 ^ e := Nat.mul_pos some (Nat.two_pow_pos e)
  have bounded : m * 2 ^ e < 2 ^ (53 + e) := by
    rw [Nat.pow_add]
    exact Nat.mul_lt_mul_of_pos_right normal.1 (Nat.two_pow_pos e)
  have range : e ≤ 2045 := normal.2.2
  obtain ⟨lower, upper⟩ := leadingExponent_range unitDenominator_eq positive bounded
  obtain ⟨precise, short⟩ := seventeen_digits positive unitDenominator_pos grid
  have step : 0 < unitDenominator * 10 ^ k.toNat :=
    Nat.mul_pos unitDenominator_pos (Nat.pow_pos (by decide))
  refine onGrid_isSome (by rw [scaleDown_eq]) ?_
  have floor : m * 2 ^ e * 10 ^ (-k).toNat / (unitDenominator * 10 ^ k.toNat) < 10 ^ 17 :=
    (Nat.div_lt_iff_lt_mul step).2 short
  have division := Nat.div_add_mod (m * 2 ^ e * 10 ^ (-k).toNat) (unitDenominator * 10 ^ k.toNat)
  have rest := Nat.mod_lt (m * 2 ^ e * 10 ^ (-k).toNat) step
  generalize quotient : m * 2 ^ e * 10 ^ (-k).toNat / (unitDenominator * 10 ^ k.toNat) = q at *
  generalize m * 2 ^ e * 10 ^ (-k).toNat % (unitDenominator * 10 ^ k.toNat) = r at *
  rw [Nat.mul_comm] at division
  have digits (d : Nat) (few : d ≤ 10 ^ 17) : digitCount d ≤ 18 := digitCount_le_iff.2 (by omega)
  have next : (q + 1) * (unitDenominator * 10 ^ k.toNat) =
      q * (unitDenominator * 10 ^ k.toNat) + unitDenominator * 10 ^ k.toNat := by grind
  by_cases near : 2 * r ≤ unitDenominator * 10 ^ k.toNat
  · have count := digits q (by omega)
    exact .inl (nearest_reads normal precise (by omega) (by omega) (by omega) (by omega))
  · have count := digits (q + 1) (by omega)
    exact .inr (nearest_reads normal precise (by omega) (by omega) (by omega) (by omega))

/-- A decimal that reads back does so under either sign. -/
theorem ofDecimal_signed {digits : Nat} {exponent : Int}
    (read : ofDecimal false digits exponent = finite false m e) (s : Bool) :
    ofDecimal s digits exponent = finite s m e := by
  have zeros : zero false = finite false m e → zero s = finite s m e := by
    intro same
    cases same
    rfl
  unfold ofDecimal at read ⊢
  dsimp only at read ⊢
  split at read
  · next none =>
    rw [if_pos none]
    exact zeros read
  next some =>
  rw [if_neg some]
  split at read
  · cases read
  next small =>
  rw [if_neg small]
  split at read
  · next tiny =>
    rw [if_pos tiny]
    exact zeros read
  next large =>
  rw [if_neg large]
  cases exponent with
  | ofNat n => exact ofRatio_signed read s
  | negSucc n => exact ofRatio_signed read s

/-- The shortest decimal of a number reads back as it. -/
theorem shortest_reads (s : Bool) (normal : (finite s m e).Normal) (some : 0 < m) :
    ofDecimal s (shortest m e).digits (shortest m e).exponent = finite s m e := by
  have grid := onGrid_seventeen (k := leadingExponent (m * 2 ^ e) unitDenominator - (17 : Nat) + 1)
    normal some (by omega)
  obtain ⟨d, found, reads⟩ := searchGrids_reads grid 17 1 (by decide) (by decide)
  refine ofDecimal_signed ?_ s
  unfold shortest
  dsimp only
  rw [Nat.pow_eq, found, dropZeros_reads]
  exact reads

end

end AvroRegistry.Binary64
