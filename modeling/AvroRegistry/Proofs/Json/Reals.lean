import AvroRegistry.Proofs.Json.Numerals
import AvroRegistry.Proofs.Number.Shortest

/-!
# Real numbers read back

The text of a real number is read back as the same number (`readsBack`). Its digits are those of the
shortest decimal, laid out positionally or with an exponent; in either layout a reader puts the same
decimal together again, up to zeros that do not count (`readsAt_positional`, `readsAt_scientific`),
and `Binary64.shortest_reads` says what that decimal is read as.
-/

namespace AvroRegistry

namespace Json

/-! ## What digits are worth -/

theorem value_eq (cs : List Char) : Text.value cs = Nat.ofDigitChars 10 cs 0 :=
  Nat.ofDigitChars_eq_foldl.symm

/-- Zeros in front do not count. -/
theorem value_zeros_append (n : Nat) (cs : List Char) :
    Text.value (List.replicate n '0' ++ cs) = Text.value cs := by
  rw [value_eq, value_eq, Nat.ofDigitChars_append, Nat.ofDigitChars_replicate_zero, Nat.mul_zero]

/-- Zeros behind multiply by ten. -/
theorem value_append_zeros (cs : List Char) (n : Nat) :
    Text.value (cs ++ List.replicate n '0') = Text.value cs * 10 ^ n := by
  rw [value_eq, value_eq, Nat.ofDigitChars_append, Nat.ofDigitChars_replicate_zero, Nat.mul_comm]

/-! ## The parts of a numeral -/

/-- Whether digits are read as a whole part: there are some, and no zero begins them that is not
alone. -/
structure Whole (cs : List Char) : Prop where
  some : cs ≠ []
  all : wholeDigits cs = cs

theorem whole_zero : Whole ['0'] := ⟨by decide, rfl⟩

/-- Digits that go on, if they do not begin with a zero. -/
theorem whole_cons {d : Char} {rest : List Char} (digits : ∀ c ∈ d :: rest, c.isDigit = true)
    (other : d ≠ '0') : Whole (d :: rest) := by
  refine ⟨List.cons_ne_nil _ _, ?_⟩
  rw [wholeDigits_cons, if_neg other, List.takeWhile_eq_self_iff]
  exact digits

variable {s : Bool} {whole fraction tail : List Char}

theorem Whole.digits (part : Whole whole) : ∀ c ∈ whole, c.isDigit = true := by
  obtain ⟨d, rest, rfl⟩ := List.exists_cons_of_ne_nil part.some
  have all := part.all
  rw [wholeDigits_cons] at all
  split at all
  · next zero =>
    rw [← all]
    exact List.forall_mem_singleton.2 rfl
  · exact List.takeWhile_eq_self_iff.1 all

/-- A whole part is read in front of anything that is no digit. -/
theorem Whole.append (part : Whole whole) {c : Char} (stops : c.isDigit = false)
    (rest : List Char) : wholeDigits (whole ++ c :: rest) = whole := by
  have digits := part.digits
  obtain ⟨d, more, rfl⟩ := List.exists_cons_of_ne_nil part.some
  have all := part.all
  rw [wholeDigits_cons] at all
  rw [List.cons_append, wholeDigits_cons]
  split at all
  · next zero => rw [if_pos zero, all]
  · next other =>
    rw [if_neg other, ← List.cons_append, List.takeWhile_append_of_pos digits,
      List.takeWhile_cons, stops]
    simp

/-- Whether nothing more is read as a digit. -/
def Stops (cs : List Char) : Prop := ∀ c ∈ cs.head?, c.isDigit = false

theorem Stops.takeWhile (stops : Stops tail) {cs : List Char}
    (digits : ∀ c ∈ cs, c.isDigit = true) : (cs ++ tail).takeWhile Char.isDigit = cs := by
  rw [List.takeWhile_append_of_pos digits]
  cases tail with
  | nil => simp
  | cons c rest => simp [stops c rfl]

theorem Stops.dropWhile (stops : Stops tail) {cs : List Char}
    (digits : ∀ c ∈ cs, c.isDigit = true) : (cs ++ tail).dropWhile Char.isDigit = tail := by
  rw [List.dropWhile_append_of_pos digits]
  cases tail with
  | nil => rfl
  | cons c rest => simp [stops c rfl]

theorem readFraction_written (filled : fraction ≠ [])
    (digits : ∀ c ∈ fraction, c.isDigit = true) (stops : Stops tail) :
    readFraction ('.' :: (fraction ++ tail)) = (some fraction, tail) := by
  rw [readFraction_point, stops.takeWhile digits, stops.dropWhile digits]
  simp [filled]

/-- The exponent of a numeral is read back. -/
theorem readExponent_written (e : Int) :
    readExponent ('e' :: Binary64.exponentChars e) = (some e, []) := by
  have digits : ∀ c ∈ Binary64.digitChars e.natAbs, c.isDigit = true := isDigit_toDigits _
  have worth : Text.value (Binary64.digitChars e.natAbs) = e.natAbs := value_toDigits _
  obtain ⟨written, shape, digits, some, worth⟩ : ∃ written : List Char,
      Binary64.exponentChars e = (if e < 0 then '-' else '+') :: written ∧
        (∀ c ∈ written, c.isDigit = true) ∧ written ≠ [] ∧ Text.value written = e.natAbs := by
    unfold Binary64.exponentChars
    dsimp only
    by_cases few : (Binary64.digitChars e.natAbs).length < 2
    · rw [if_pos few]
      refine ⟨_, rfl, List.forall_mem_cons.2 ⟨rfl, digits⟩, List.cons_ne_nil _ _, ?_⟩
      have zero := value_zeros_append 1 (Binary64.digitChars e.natAbs)
      exact zero.trans worth
    · rw [if_neg few]
      exact ⟨_, rfl, digits, Nat.toDigits_ne_nil, worth⟩
  have sign : exponentSign (Binary64.exponentChars e) = (decide (e < 0), written) := by
    rw [shape]
    by_cases negative : e < 0
    · rw [if_pos negative, decide_eq_true negative]
      rfl
    · rw [if_neg negative, decide_eq_false negative]
      rfl
  have all : written.takeWhile Char.isDigit = written := List.takeWhile_eq_self_iff.2 digits
  have none : written.dropWhile Char.isDigit = [] := List.dropWhile_eq_nil_iff.2 digits
  rw [readExponent_cons, if_pos (.inl rfl), sign]
  dsimp only
  rw [all, none, worth, if_neg (by simpa using some)]
  congr 2
  by_cases negative : e < 0
  · rw [decide_eq_true negative, if_pos rfl]
    omega
  · rw [decide_eq_false negative, if_neg Bool.false_ne_true]
    omega

/-! ## Numerals with a fraction or an exponent -/

/-- What the parts of a numeral are read as. -/
def decimalValue (s : Bool) (digits : List Char) (exponent : Int) : Json :=
  float (Binary64.ofDecimal s (Text.value digits) exponent)

theorem readUnsigned?_fraction (part : Whole whole) (filled : fraction ≠ [])
    (digits : ∀ c ∈ fraction, c.isDigit = true) (stops : Stops tail) {exponent : Option Int}
    (read : readExponent tail = (exponent, [])) :
    readUnsigned? s (whole ++ '.' :: (fraction ++ tail)) =
      some (.ok (decimalValue s (whole ++ fraction) (exponent.getD 0 - (fraction.length : Int)),
        [])) := by
  have begins : whole.isEmpty = false := List.isEmpty_eq_false_iff.2 part.some
  unfold readUnsigned?
  rw [part.append rfl]
  dsimp only
  rw [begins, if_neg Bool.false_ne_true, List.drop_left, readFraction_written filled digits stops]
  dsimp only
  rw [read]
  rfl

theorem readUnsigned?_exponent (part : Whole whole) (e : Int) :
    readUnsigned? s (whole ++ 'e' :: Binary64.exponentChars e) =
      some (.ok (decimalValue s whole e, [])) := by
  have begins : whole.isEmpty = false := List.isEmpty_eq_false_iff.2 part.some
  have none : readFraction ('e' :: Binary64.exponentChars e) =
      (none, 'e' :: Binary64.exponentChars e) := rfl
  unfold readUnsigned?
  rw [part.append rfl]
  dsimp only
  rw [begins, if_neg Bool.false_ne_true, List.drop_left, none]
  dsimp only
  rw [readExponent_written]
  unfold decimalValue
  simp

theorem readUnsigned?_point (part : Whole whole) (filled : fraction ≠ [])
    (digits : ∀ c ∈ fraction, c.isDigit = true) :
    readUnsigned? s (whole ++ '.' :: fraction) =
      some (.ok (decimalValue s (whole ++ fraction) (-(fraction.length : Int)), [])) := by
  have none : readExponent ([] : List Char) = (none, []) := rfl
  have read := @readUnsigned?_fraction s whole fraction [] part filled digits nofun _ none
  rw [List.append_nil, Option.getD_none, Int.zero_sub] at read
  exact read

/-! ## Layouts -/

section

variable {n : Nat}

/-- Whether a text is read as the decimal with the digits of `n` of which the first has the exponent
`leading`. -/
def ReadsAt (s : Bool) (n : Nat) (leading : Int) (cs : List Char) : Prop :=
  readUnsigned? s cs = some (.ok (float (Binary64.ofDecimal s n
    (leading + 1 - ((Nat.toDigits 10 n).length : Int))), []))

/-- Text that is read as some digits and an exponent, if they are worth as much. -/
theorem ReadsAt.of_worth {cs digits : List Char} {exponent leading : Int}
    (read : readUnsigned? s cs = some (.ok (decimalValue s digits exponent, [])))
    (worth : Binary64.ofDecimal s (Text.value digits) exponent =
      Binary64.ofDecimal s n (leading + 1 - ((Nat.toDigits 10 n).length : Int))) :
    ReadsAt s n leading cs := by
  unfold ReadsAt
  rw [read, ← worth]
  rfl

theorem isDigit_zeros (k : Nat) : ∀ c ∈ List.replicate k '0', c.isDigit = true := by
  intro c mem
  rw [(List.mem_replicate.1 mem).2]
  rfl

/-- All digits behind the point: the zeros in front of them do not count. -/
theorem readsAt_small {leading : Int} (small : leading < 0) :
    ReadsAt s n leading
      ('0' :: '.' :: (List.replicate (leading.natAbs - 1) '0' ++ Nat.toDigits 10 n)) := by
  have digits := isDigit_toDigits n
  have worth := value_toDigits n
  have filled : Nat.toDigits 10 n ≠ [] := Nat.toDigits_ne_nil
  refine .of_worth (readUnsigned?_point whole_zero (by simp [filled])
    (List.forall_mem_append.2 ⟨isDigit_zeros _, digits⟩)) ?_
  have front := value_zeros_append 1 (List.replicate (leading.natAbs - 1) '0' ++ Nat.toDigits 10 n)
  rw [List.replicate_one] at front
  rw [front, value_zeros_append, worth, List.length_append, List.length_replicate]
  congr 1
  omega

theorem toDigits_pos {n : Nat} (pos : 0 < n) :
    ∃ d rest, Nat.toDigits 10 n = d :: rest ∧ d ≠ '0' := by
  obtain ⟨d, rest, shape, -⟩ := toDigits_cons n
  refine ⟨d, rest, shape, ?_⟩
  rintro rfl
  exact toDigits_head_ne_zero pos rest shape

/-- All digits in front of the point: the zeros behind them are moved into the exponent. -/
theorem readsAt_large (pos : 0 < n) {whole : Nat} (short : (Nat.toDigits 10 n).length ≤ whole + 1) :
    ReadsAt s n whole (Nat.toDigits 10 n ++
      List.replicate (whole + 1 - (Nat.toDigits 10 n).length) '0' ++ ['.', '0']) := by
  have digits := isDigit_toDigits n
  have worth := value_toDigits n
  obtain ⟨d, rest, shape, first⟩ := toDigits_pos pos
  obtain ⟨zeros, count⟩ : ∃ zeros, whole + 1 = (Nat.toDigits 10 n).length + zeros :=
    ⟨whole + 1 - (Nat.toDigits 10 n).length, by omega⟩
  have part : Whole (Nat.toDigits 10 n ++ List.replicate zeros '0') := by
    have all := List.forall_mem_append.2 ⟨digits, isDigit_zeros zeros⟩
    rw [shape, List.cons_append] at all ⊢
    exact whole_cons all first
  rw [count, Nat.add_sub_cancel_left]
  refine .of_worth (readUnsigned?_point part (List.cons_ne_nil '0' []) (isDigit_zeros 1)) ?_
  have behind := value_append_zeros (Nat.toDigits 10 n ++ List.replicate zeros '0') 1
  rw [List.replicate_one] at behind
  rw [behind, value_append_zeros, worth, Binary64.ofDecimal_zeros, Binary64.ofDecimal_zeros]
  congr 1
  simp only [List.length_singleton]
  omega

/-- The point among the digits. -/
theorem readsAt_between (pos : 0 < n) {whole : Nat}
    (long : whole + 1 < (Nat.toDigits 10 n).length) :
    ReadsAt s n whole ((Nat.toDigits 10 n).take (whole + 1) ++
      '.' :: (Nat.toDigits 10 n).drop (whole + 1)) := by
  have digits := isDigit_toDigits n
  have worth := value_toDigits n
  obtain ⟨d, rest, shape, first⟩ := toDigits_pos pos
  have part : Whole ((Nat.toDigits 10 n).take (whole + 1)) := by
    have all : ∀ c ∈ (Nat.toDigits 10 n).take (whole + 1), c.isDigit = true :=
      fun c mem => digits c (List.mem_of_mem_take mem)
    rw [shape, List.take_succ_cons] at all ⊢
    exact whole_cons all first
  refine .of_worth (readUnsigned?_point part ?_ fun c mem => digits c (List.mem_of_mem_drop mem)) ?_
  · intro none
    have := List.drop_eq_nil_iff.1 none
    omega
  · rw [List.take_append_drop, worth, List.length_drop]
    congr 1
    omega

/-- Digits laid out positionally are put together again. -/
theorem readsAt_positional (pos : 0 < n) (leading : Int) :
    ReadsAt s n leading (Binary64.positional (Nat.toDigits 10 n) leading) := by
  unfold Binary64.positional
  split
  · next small => exact readsAt_small small
  · next large =>
    obtain ⟨whole, rfl⟩ := Int.eq_ofNat_of_zero_le (Int.not_lt.1 large)
    dsimp only
    rw [Int.natAbs_natCast]
    split
    · next short => exact readsAt_large pos short
    · next long => exact readsAt_between pos (Nat.lt_of_not_le long)

/-- So are digits laid out with an exponent. -/
theorem readsAt_scientific (pos : 0 < n) (leading : Int) :
    ReadsAt s n leading (Binary64.scientific false (Nat.toDigits 10 n) leading) := by
  have digits := isDigit_toDigits n
  have worth := value_toDigits n
  obtain ⟨d, rest, shape, first⟩ := toDigits_pos pos
  have part : Whole [d] := whole_cons (fun c mem => digits c (by simp_all)) first
  rw [shape] at digits worth ⊢
  cases rest with
  | nil =>
    refine .of_worth (readUnsigned?_exponent part leading) ?_
    rw [worth, shape]
    congr 1
    simp only [List.length_singleton]
    omega
  | cons next more =>
    have behind : ∀ c ∈ next :: more, c.isDigit = true :=
      fun c mem => digits c (List.mem_cons_of_mem _ mem)
    have stops : Stops ('e' :: Binary64.exponentChars leading) := by
      intro c mem
      cases mem
      rfl
    refine .of_worth (readUnsigned?_fraction part (List.cons_ne_nil _ _) behind stops
      (readExponent_written leading)) ?_
    rw [List.singleton_append, worth, shape, Option.getD_some]
    congr 1
    simp only [List.length_cons]
    omega

/-- So in whichever layout they are. -/
theorem readsAt_layout (pos : 0 < n) (positionally : Prop) [Decidable positionally]
    (leading : Int) : ReadsAt s n leading
      (if positionally then Binary64.positional (Nat.toDigits 10 n) leading
        else Binary64.scientific false (Nat.toDigits 10 n) leading) := by
  split
  · exact readsAt_positional pos leading
  · exact readsAt_scientific pos leading

end

/-! ## Reading back -/

theorem readNumber?_signed (s : Bool) {d : Char} (digit : d.isDigit = true) (rest : List Char) :
    readNumber? ((if s then ['-'] else []) ++ d :: rest) = readUnsigned? s (d :: rest) := by
  cases s with
  | true => rfl
  | false =>
    show readNumber? (d :: rest) = _
    unfold readNumber?
    split
    · next h =>
      cases h
      cases digit
    · rfl

theorem readNumber?_layout {n : Nat} (pos : 0 < n) (positionally : Prop) [Decidable positionally]
    (leading : Int) : readNumber? ((if s then ['-'] else []) ++
      (if positionally then Binary64.positional (Nat.toDigits 10 n) leading
        else Binary64.scientific false (Nat.toDigits 10 n) leading)) =
      some (.ok (float (Binary64.ofDecimal s n
        (leading + 1 - ((Nat.toDigits 10 n).length : Int))), [])) := by
  obtain ⟨d, rest, digits, -⟩ := toDigits_cons n
  obtain ⟨first, more, shape, digit, -⟩ :=
    layout_shape digits (isDigit_toDigits n) positionally false leading
  have read := @readsAt_layout s n pos positionally _ leading
  rw [shape] at read ⊢
  rw [readNumber?_signed s digit]
  exact read

/-- The text of a number in its one form is read as the number. -/
theorem readNumber?_render {m e : Nat} (normal : (Binary64.finite s m e).Normal) :
    readNumber? ((Binary64.finite s m e).render numberStyle).toList =
      some (.ok (float (.finite s m e), [])) := by
  unfold Binary64.render
  dsimp only
  split
  · next zero =>
    subst zero
    obtain rfl : e = 0 := by
      rcases normal.2.1 with fine | coarse
      · exact fine
      · exact absurd coarse (by decide)
    cases s <;> rfl
  · next positive =>
    rw [String.toList_ofList]
    have style : numberStyle.digitCount = none := rfl
    have read := Binary64.shortest_reads s normal (Nat.pos_of_ne_zero positive)
    rw [style]
    dsimp only
    generalize Binary64.shortest m e = d at read ⊢
    have pos : 0 < d.digits := by
      refine Nat.pos_of_ne_zero fun none => ?_
      rw [none] at read
      cases read
      exact positive rfl
    have layout := @readNumber?_layout s d.digits pos
    refine (layout _ _).trans ?_
    have exponent : d.exponent + ((Nat.toDigits 10 d.digits).length : Int) - 1 + 1 -
        ((Nat.toDigits 10 d.digits).length : Int) = d.exponent := by omega
    unfold Binary64.digitChars
    rw [exponent, read]

/-- The text of a real number is read back as the same number. -/
theorem readsBack {x : Binary64} (normal : x.Normal) : x.ReadsBack := by
  cases x with
  | nan => rfl
  | infinite negative => cases negative <;> rfl
  | finite s m e =>
    have numeral := numeral_render s m e
    have scalar := numeral.begins.readScalar (readNumber?_render normal)
    unfold Binary64.ReadsBack
    rw [decode_eq_ok, encode, write, String.toList_ofList]
    unfold read
    split
    · next mark =>
      have begins := numeral.chars '\ufeff' (mark ▸ List.mem_cons_self)
      cases begins
    · rw [skipGaps_of_chars numeral.chars, numeral.begins.readValue, scalar]
      rfl

end Json

end AvroRegistry
