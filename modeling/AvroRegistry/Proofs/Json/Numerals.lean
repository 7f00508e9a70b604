import AvroRegistry.Json.Decode
import AvroRegistry.Json.Encode
import Mathlib.Data.List.TakeWhile

/-!
# Numerals read back

A number is read as far as its characters go. What may follow a value in a text, a comma, a closing
bracket or a blank, goes on with none of its parts, so a numeral is read the same way alone and in
front of it: `readNumber?_append`. An integer that is not too long is read back from its decimal
digits (`readNumber?_decimal`). Of a real number that is what `Binary64.ReadsBack` says of its
text alone; `readNumber?_render` carries it over to the text inside another one.
-/

namespace AvroRegistry

/-- Whether the JSON text of a real number is read back as the same number. -/
def Binary64.ReadsBack (x : Binary64) : Prop :=
  Json.decode (Json.encode Json.compact (.float x)) = .ok (.float x)

namespace Json

/-! ## Characters of a list -/

/-- What holds of each character of a list, read off a computation that goes through the list alone.
-/
theorem forall_mem_of_all {p : Char → Prop} [DecidablePred p] {cs : List Char}
    (all : (cs.all fun c => decide (p c)) = true) : ∀ c ∈ cs, p c := by
  simpa using all

/-! ## What may follow a value -/

/-- The characters that may stand behind a value. -/
def delimiters : List Char := [',', ']', '}', ' ', '\t', '\n', '\r']

/-- Whether a text can stand behind a value: it is empty or begins with a delimiter. -/
def Ends (tail : List Char) : Prop := ∀ c ∈ tail.head?, c ∈ delimiters

theorem ends_nil : Ends [] := nofun

theorem ends_cons {c : Char} {tail : List Char} (delimits : c ∈ delimiters) : Ends (c :: tail) := by
  simpa [Ends] using delimits

theorem not_isDigit_of_delimits : ∀ c ∈ delimiters, c.isDigit = false :=
  forall_mem_of_all (by decide)

variable {tail : List Char}

theorem Ends.takeWhile_isDigit (ends : Ends tail) : tail.takeWhile Char.isDigit = [] := by
  cases tail with
  | nil => rfl
  | cons c tail => rw [List.takeWhile_cons, not_isDigit_of_delimits c (ends c rfl)]; rfl

theorem Ends.dropWhile_isDigit (ends : Ends tail) : tail.dropWhile Char.isDigit = tail := by
  cases tail with
  | nil => rfl
  | cons c tail => rw [List.dropWhile_cons, not_isDigit_of_delimits c (ends c rfl)]; rfl

theorem takeWhile_isDigit_append (ends : Ends tail) (cs : List Char) :
    (cs ++ tail).takeWhile Char.isDigit = cs.takeWhile Char.isDigit := by
  rw [List.takeWhile_append, ends.takeWhile_isDigit, List.append_nil]
  split
  · next whole => exact ((List.takeWhile_prefix _).eq_of_length whole).symm
  · rfl

theorem dropWhile_isDigit_append (ends : Ends tail) (cs : List Char) :
    (cs ++ tail).dropWhile Char.isDigit = cs.dropWhile Char.isDigit ++ tail := by
  rw [List.dropWhile_append, ends.dropWhile_isDigit]
  split
  · next none => rw [List.isEmpty_iff.1 none, List.nil_append]
  · rfl

theorem Ends.head_ne (ends : Ends tail) {c : Char} (other : c ∉ delimiters) :
    ∀ rest, tail ≠ c :: rest := by
  rintro rest rfl
  exact other (ends c rfl)

/-! ## The parts of a numeral -/

theorem wholeDigits_cons (c : Char) (rest : List Char) :
    wholeDigits (c :: rest) =
      if c = '0' then ['0'] else (c :: rest).takeWhile Char.isDigit := by
  unfold wholeDigits
  split
  · next h =>
    cases h
    rw [if_pos rfl]
  · next other =>
    rw [if_neg]
    rintro rfl
    exact other rest rfl

theorem wholeDigits_front (cs : List Char) : wholeDigits cs <+: cs := by
  unfold wholeDigits
  split
  · exact List.prefix_append ['0'] _
  · exact List.takeWhile_prefix _

theorem wholeDigits_append (ends : Ends tail) (cs : List Char) :
    wholeDigits (cs ++ tail) = wholeDigits cs := by
  cases cs with
  | nil =>
    unfold wholeDigits
    split
    · next h => exact absurd h (ends.head_ne (by decide) _)
    · exact ends.takeWhile_isDigit
  | cons c rest =>
    rw [List.cons_append, wholeDigits_cons, wholeDigits_cons, ← List.cons_append,
      takeWhile_isDigit_append ends]

theorem readFraction_other {cs : List Char} (other : ∀ rest, cs ≠ '.' :: rest) :
    readFraction cs = (none, cs) := by
  unfold readFraction
  split
  · next h => exact absurd rfl (other _)
  · rfl

theorem readFraction_point (rest : List Char) :
    readFraction ('.' :: rest) =
      if (rest.takeWhile Char.isDigit).isEmpty then (none, '.' :: rest)
      else (some (rest.takeWhile Char.isDigit), rest.dropWhile Char.isDigit) := rfl

theorem readFraction_append (ends : Ends tail) (cs : List Char) :
    readFraction (cs ++ tail) = ((readFraction cs).1, (readFraction cs).2 ++ tail) := by
  by_cases point : ∃ rest, cs = '.' :: rest
  · obtain ⟨rest, rfl⟩ := point
    rw [List.cons_append, readFraction_point, readFraction_point, takeWhile_isDigit_append ends,
      dropWhile_isDigit_append ends]
    split <;> rfl
  · have other : ∀ rest, cs ≠ '.' :: rest := fun rest h => point ⟨rest, h⟩
    have further : ∀ rest, cs ++ tail ≠ '.' :: rest := by
      cases cs with
      | nil => exact ends.head_ne (by decide)
      | cons c more => simpa using other
    rw [readFraction_other other, readFraction_other further]

/-- The sign of an exponent, and what follows it. -/
def exponentSign : List Char → Bool × List Char
  | '-' :: rest => (true, rest)
  | '+' :: rest => (false, rest)
  | rest => (false, rest)

theorem exponentSign_append (ends : Ends tail) (cs : List Char) :
    exponentSign (cs ++ tail) = ((exponentSign cs).1, (exponentSign cs).2 ++ tail) := by
  have signless : ∀ {xs : List Char}, (∀ rest, xs ≠ '-' :: rest) → (∀ rest, xs ≠ '+' :: rest) →
      exponentSign xs = (false, xs) := by
    intro xs minus plus
    unfold exponentSign
    split
    · exact absurd rfl (minus _)
    · exact absurd rfl (plus _)
    · rfl
  cases cs with
  | nil => exact signless (ends.head_ne (by decide)) (ends.head_ne (by decide))
  | cons c rest =>
    by_cases minus : c = '-'
    · subst minus
      rfl
    by_cases plus : c = '+'
    · subst plus
      rfl
    rw [signless (by simp [minus]) (by simp [plus]), signless (by simp [minus]) (by simp [plus])]

theorem readExponent_cons (e : Char) (rest : List Char) :
    readExponent (e :: rest) =
      if e = 'e' ∨ e = 'E' then
        let digits := (exponentSign rest).2.takeWhile Char.isDigit
        if digits.isEmpty then (none, e :: rest)
        else (some (if (exponentSign rest).1 then -(Text.value digits : Int)
          else (Text.value digits : Int)), (exponentSign rest).2.dropWhile Char.isDigit)
      else (none, e :: rest) := rfl

theorem readExponent_append (ends : Ends tail) (cs : List Char) :
    readExponent (cs ++ tail) = ((readExponent cs).1, (readExponent cs).2 ++ tail) := by
  cases cs with
  | nil =>
    cases tail with
    | nil => rfl
    | cons c tail =>
      have other : ¬ (c = 'e' ∨ c = 'E') := by
        rintro (rfl | rfl) <;> exact absurd (ends _ rfl) (by decide)
      rw [List.nil_append, readExponent_cons, if_neg other]
      rfl
  | cons e rest =>
    rw [List.cons_append, readExponent_cons, readExponent_cons, exponentSign_append ends,
      takeWhile_isDigit_append ends, dropWhile_isDigit_append ends]
    dsimp only
    split
    · split <;> rfl
    · rfl

/-- Adds what follows to what is left after reading. -/
def leaving (tail : List Char) :
    Except ReadFault (Json × List Char) → Except ReadFault (Json × List Char)
  | .ok (v, rest) => .ok (v, rest ++ tail)
  | .error e => .error e

theorem readUnsigned?_append (ends : Ends tail) (negative : Bool) (cs : List Char) :
    readUnsigned? negative (cs ++ tail) = (readUnsigned? negative cs).map (leaving tail) := by
  unfold readUnsigned?
  rw [wholeDigits_append ends]
  dsimp only
  split
  · rfl
  rw [List.drop_append_of_le_length (wholeDigits_front cs).length_le, readFraction_append ends,
    readExponent_append ends]
  dsimp only
  split
  · split <;> rfl
  · rfl

theorem readNumber?_append (ends : Ends tail) {cs : List Char} (some : cs ≠ []) :
    readNumber? (cs ++ tail) = (readNumber? cs).map (leaving tail) := by
  obtain ⟨c, rest, rfl⟩ := List.exists_cons_of_ne_nil some
  by_cases minus : c = '-'
  · subst minus
    exact readUnsigned?_append ends true rest
  · have plain : ∀ more, readNumber? (c :: more) = readUnsigned? false (c :: more) := by
      intro more
      unfold readNumber?
      split
      · next h =>
        cases h
        exact absurd rfl minus
      · rfl
    rw [List.cons_append, plain, plain, ← List.cons_append]
    exact readUnsigned?_append ends false (c :: rest)

/-! ## Where a number stands -/

/-- Whether a text begins with a digit or with a dash and a digit. -/
def BeginsNumber (cs : List Char) : Prop :=
  ∃ d rest, d.isDigit = true ∧ (cs = d :: rest ∨ cs = '-' :: d :: rest)

theorem BeginsNumber.append {cs : List Char} (begins : BeginsNumber cs) (tail : List Char) :
    BeginsNumber (cs ++ tail) := by
  obtain ⟨d, rest, digit, rfl | rfl⟩ := begins
  · exact ⟨d, rest ++ tail, digit, .inl rfl⟩
  · exact ⟨d, rest ++ tail, digit, .inr rfl⟩

theorem BeginsNumber.cons {c : Char} (digit : c.isDigit = true) (rest : List Char) :
    BeginsNumber (c :: rest) :=
  ⟨c, rest, digit, .inl rfl⟩

theorem BeginsNumber.dash {cs : List Char} {d : Char} {rest : List Char} (shape : cs = d :: rest)
    (digit : d.isDigit = true) : BeginsNumber ('-' :: cs) :=
  ⟨d, rest, digit, .inr (congrArg _ shape)⟩

/-- Where a number stands there is no word, ... -/
theorem BeginsNumber.readWord? {cs : List Char} (begins : BeginsNumber cs) :
    readWord? cs words = none := by
  obtain ⟨d, rest, digit, rfl | rfl⟩ := begins
  all_goals
    have letters : ∀ c : Char, c.isDigit = false → c ≠ d := by
      rintro c other rfl
      rw [digit] at other
      cases other
    simp [Json.readWord?, words, after?, letters]

/-- ... so what stands there is read as a number. -/
theorem BeginsNumber.readScalar {cs : List Char} (begins : BeginsNumber cs)
    {result : Except ReadFault (Json × List Char)} (number : readNumber? cs = some result) :
    readScalar cs = result := by
  unfold Json.readScalar
  rw [begins.readWord?, number]

theorem BeginsNumber.ne_nil {cs : List Char} (begins : BeginsNumber cs) : cs ≠ [] := by
  rintro rfl
  obtain ⟨d, rest, -, h | h⟩ := begins <;> cases h

/-- A number that is read to the end of its text is read in front of a delimiter. -/
theorem BeginsNumber.readScalar_append {cs : List Char} (begins : BeginsNumber cs) {v : Json}
    (number : readNumber? cs = some (.ok (v, []))) (ends : Ends tail) :
    Json.readScalar (cs ++ tail) = .ok (v, tail) := by
  refine (begins.append tail).readScalar ?_
  rw [readNumber?_append ends begins.ne_nil, number]
  rfl

/-! ## Integers -/

theorem isDigit_toDigits (n : Nat) : ∀ c ∈ Nat.toDigits 10 n, c.isDigit = true :=
  fun _ mem => Nat.isDigit_of_mem_toDigits (by decide) (by decide) mem

theorem toDigits_cons (n : Nat) :
    ∃ d rest, Nat.toDigits 10 n = d :: rest ∧ d.isDigit = true := by
  obtain ⟨d, rest, shape⟩ := List.exists_cons_of_ne_nil (@Nat.toDigits_ne_nil n 10)
  exact ⟨d, rest, shape, isDigit_toDigits n d (shape ▸ List.mem_cons_self)⟩

/-- The decimal digits of a positive number do not begin with a zero. -/
theorem toDigits_head_ne_zero {n : Nat} (pos : 0 < n) (rest : List Char) :
    Nat.toDigits 10 n ≠ '0' :: rest := by
  induction n using Nat.strongRecOn generalizing rest with
  | _ n ih =>
    rw [Nat.toDigits_eq_if (by decide)]
    split
    · next small =>
      intro h
      have zero : Nat.digitChar n = '0' := (List.cons.inj h).1
      have none : ∀ m < 10, 0 < m → Nat.digitChar m ≠ '0' := by decide
      exact none n small pos zero
    · next large =>
      intro h
      obtain ⟨d, more, shape, -⟩ := toDigits_cons (n / 10)
      rw [shape, List.cons_append] at h
      obtain ⟨rfl, -⟩ := List.cons.inj h
      exact ih (n / 10) (by omega) (by omega) more shape

theorem wholeDigits_toDigits (n : Nat) : wholeDigits (Nat.toDigits 10 n) = Nat.toDigits 10 n := by
  rcases Nat.eq_zero_or_pos n with rfl | pos
  · rfl
  · unfold wholeDigits
    split
    · next h => exact absurd h (toDigits_head_ne_zero pos _)
    · exact List.takeWhile_eq_self_iff.2 (isDigit_toDigits n)

theorem value_toDigits (n : Nat) : Text.value (Nat.toDigits 10 n) = n := by
  unfold Text.value
  rw [← Nat.ofDigitChars_eq_foldl, Nat.ofDigitChars_ten_toDigits]

/-- Whether an integer has few enough digits to be read. -/
def IsShort (n : Int) : Prop := (Nat.toDigits 10 n.natAbs).length ≤ Text.maxIntegerDigits

theorem readUnsigned?_toDigits (negative : Bool) {n : Nat}
    (short : (Nat.toDigits 10 n).length ≤ Text.maxIntegerDigits) :
    readUnsigned? negative (Nat.toDigits 10 n) =
      some (.ok (int (if negative then -(n : Int) else n), [])) := by
  have some : (Nat.toDigits 10 n).isEmpty = false := by
    rw [List.isEmpty_eq_false_iff]
    exact Nat.toDigits_ne_nil
  unfold readUnsigned?
  rw [wholeDigits_toDigits]
  dsimp only
  rw [some, if_neg Bool.false_ne_true, List.drop_length]
  dsimp only [readFraction, readExponent]
  rw [if_neg (Nat.not_lt.2 short), value_toDigits]

theorem readNumber?_decimal {n : Int} (short : IsShort n) :
    readNumber? (decimal n) = some (.ok (int n, [])) := by
  unfold decimal
  split
  · next negative =>
    show readUnsigned? true _ = _
    rw [readUnsigned?_toDigits true short, if_pos rfl]
    congr
    omega
  · next positive =>
    obtain ⟨d, rest, shape, digit⟩ := toDigits_cons n.natAbs
    have plain : readNumber? (Nat.toDigits 10 n.natAbs) =
        readUnsigned? false (Nat.toDigits 10 n.natAbs) := by
      unfold readNumber?
      split
      · next h =>
        rw [shape] at h
        cases h
        cases digit
      · rfl
    rw [plain, readUnsigned?_toDigits false short, if_neg Bool.false_ne_true]
    congr
    omega

theorem beginsNumber_decimal (n : Int) : BeginsNumber (decimal n) := by
  obtain ⟨d, rest, shape, digit⟩ := toDigits_cons n.natAbs
  unfold decimal
  split
  · exact .dash shape digit
  · rw [shape]
    exact .cons digit rest

/-! ## Real numbers -/

/-- The characters of a numeral. -/
def isNumeralChar (c : Char) : Bool := c.isDigit || c = '.' || c = '-' || c = '+' || c = 'e'

/-- Whether a text is that of a number: it begins like one and has no other characters. -/
structure Numeral (cs : List Char) : Prop where
  begins : BeginsNumber cs
  chars : ∀ c ∈ cs, isNumeralChar c = true

theorem isNumeralChar_of_isDigit {c : Char} (digit : c.isDigit = true) :
    isNumeralChar c = true := by
  simp [isNumeralChar, digit]

/-- A text of numeral characters that begins with a digit. -/
theorem Numeral.of_cons {d : Char} {rest : List Char} (digit : d.isDigit = true)
    (chars : ∀ c ∈ rest, isNumeralChar c = true) : Numeral (d :: rest) := by
  refine ⟨.cons digit rest, ?_⟩
  rw [List.forall_mem_cons]
  exact ⟨isNumeralChar_of_isDigit digit, chars⟩

theorem Numeral.dash {d : Char} {rest : List Char} (numeral : Numeral (d :: rest))
    (digit : d.isDigit = true) : Numeral ('-' :: d :: rest) := by
  refine ⟨.dash rfl digit, ?_⟩
  rw [List.forall_mem_cons]
  exact ⟨by decide, numeral.chars⟩

variable {digits : List Char} {d : Char} {rest : List Char}

theorem isNumeralChar_exponentChars (e : Int) :
    ∀ c ∈ Binary64.exponentChars e, isNumeralChar c = true := by
  have digit : ∀ c ∈ Binary64.digitChars e.natAbs, isNumeralChar c = true :=
    fun c mem => isNumeralChar_of_isDigit (isDigit_toDigits _ c mem)
  unfold Binary64.exponentChars
  dsimp only
  rw [List.forall_mem_cons]
  constructor
  · split <;> decide
  · split
    · rw [List.forall_mem_cons]
      exact ⟨by decide, digit⟩
    · exact digit

/-- Digits laid out positionally begin with a digit and are a numeral. -/
theorem positional_shape (shape : digits = d :: rest) (all : ∀ c ∈ digits, c.isDigit = true)
    (leading : Int) : ∃ first more, Binary64.positional digits leading = first :: more ∧
      first.isDigit = true ∧ ∀ c ∈ more, isNumeralChar c = true := by
  have numeral : ∀ c ∈ digits, isNumeralChar c = true :=
    fun c mem => isNumeralChar_of_isDigit (all c mem)
  have zeros : ∀ (n : Nat), ∀ c ∈ List.replicate n '0', isNumeralChar c = true := by
    intro n c mem
    rw [(List.mem_replicate.1 mem).2]
    rfl
  have first : d.isDigit = true := all d (shape ▸ List.mem_cons_self)
  have later : ∀ c ∈ rest, isNumeralChar c = true :=
    fun c mem => numeral c (shape ▸ List.mem_cons_of_mem _ mem)
  unfold Binary64.positional
  split
  · refine ⟨_, _, rfl, rfl, ?_⟩
    simp only [List.forall_mem_cons, List.forall_mem_append]
    exact ⟨rfl, zeros _, numeral⟩
  · dsimp only
    split
    · rw [shape, List.cons_append, List.cons_append]
      refine ⟨_, _, rfl, first, ?_⟩
      simp only [List.forall_mem_append]
      exact ⟨⟨later, zeros _⟩, forall_mem_of_all (by decide)⟩
    · rw [shape, List.take_succ_cons, List.drop_succ_cons, List.cons_append]
      refine ⟨_, _, rfl, first, ?_⟩
      simp only [List.forall_mem_append, List.forall_mem_cons]
      exact ⟨fun c mem => later c (List.mem_of_mem_take mem), rfl,
        fun c mem => later c (List.mem_of_mem_drop mem)⟩

/-- So are digits laid out with an exponent. -/
theorem scientific_shape (shape : digits = d :: rest) (all : ∀ c ∈ digits, c.isDigit = true)
    (pointed : Bool) (leading : Int) :
    ∃ first more, Binary64.scientific pointed digits leading = first :: more ∧
      first.isDigit = true ∧ ∀ c ∈ more, isNumeralChar c = true := by
  have numeral : ∀ c ∈ digits, isNumeralChar c = true :=
    fun c mem => isNumeralChar_of_isDigit (all c mem)
  have first : d.isDigit = true := all d (shape ▸ List.mem_cons_self)
  have exponent := isNumeralChar_exponentChars leading
  subst shape
  unfold Binary64.scientific
  split
  · next h => cases h
  · next h =>
    cases h
    refine ⟨_, _, rfl, first, ?_⟩
    simp only [List.forall_mem_append, List.forall_mem_cons]
    refine ⟨?_, rfl, exponent⟩
    split <;> exact forall_mem_of_all (by decide)
  · next h =>
    cases h
    refine ⟨_, _, rfl, first, ?_⟩
    simp only [List.forall_mem_append, List.forall_mem_cons]
    exact ⟨rfl, fun c mem => numeral c (List.mem_cons_of_mem _ mem), rfl, exponent⟩

theorem layout_shape (shape : digits = d :: rest) (all : ∀ c ∈ digits, c.isDigit = true)
    (positionally : Prop) [Decidable positionally] (pointed : Bool) (leading : Int) :
    ∃ first more, (if positionally then Binary64.positional digits leading
        else Binary64.scientific pointed digits leading) = first :: more ∧
      first.isDigit = true ∧ ∀ c ∈ more, isNumeralChar c = true := by
  split
  · exact positional_shape shape all leading
  · exact scientific_shape shape all pointed leading

/-- The text of a finite number is a numeral. -/
theorem numeral_render (negative : Bool) (mantissa exponent : Nat) :
    Numeral ((Binary64.finite negative mantissa exponent).render numberStyle).toList := by
  have signed : ∀ {cs : List Char},
      (∃ first more, cs = first :: more ∧ first.isDigit = true ∧
        ∀ c ∈ more, isNumeralChar c = true) →
      Numeral ((if negative then ['-'] else []) ++ cs) := by
    rintro cs ⟨first, more, rfl, digit, chars⟩
    have numeral := Numeral.of_cons digit chars
    cases negative with
    | false => exact numeral
    | true => exact numeral.dash digit
  unfold Binary64.render
  dsimp only
  split
  · rw [String.toList_ofList]
    exact signed ⟨'0', ['.', '0'], rfl, rfl, forall_mem_of_all (by decide)⟩
  · rw [String.toList_ofList]
    apply signed
    obtain ⟨d, rest, shape, -⟩ := toDigits_cons (Binary64.shortest mantissa exponent).digits
    exact layout_shape shape (isDigit_toDigits _) _ _ _

/-! ## What is left of a text -/

theorem readFraction_suffix (cs : List Char) : (readFraction cs).2 <:+ cs := by
  by_cases point : ∃ rest, cs = '.' :: rest
  · obtain ⟨rest, rfl⟩ := point
    rw [readFraction_point]
    split
    · exact List.suffix_rfl
    · exact (List.dropWhile_suffix _).trans (List.suffix_cons _ _)
  · simp only [readFraction_other fun rest h => point ⟨rest, h⟩, List.suffix_rfl]

theorem exponentSign_suffix (cs : List Char) : (exponentSign cs).2 <:+ cs := by
  unfold exponentSign
  split
  · exact List.suffix_cons _ _
  · exact List.suffix_cons _ _
  · exact List.suffix_rfl

theorem readExponent_suffix (cs : List Char) : (readExponent cs).2 <:+ cs := by
  cases cs with
  | nil => exact List.suffix_rfl
  | cons e rest =>
    rw [readExponent_cons]
    split
    · dsimp only
      split
      · exact List.suffix_rfl
      · exact (List.dropWhile_suffix _).trans
          ((exponentSign_suffix rest).trans (List.suffix_cons _ _))
    · exact List.suffix_rfl

theorem readUnsigned?_suffix {negative : Bool} {cs rest : List Char} {v : Json}
    (number : readUnsigned? negative cs = some (.ok (v, rest))) : rest <:+ cs := by
  have left : (readExponent (readFraction (cs.drop (wholeDigits cs).length)).2).2 <:+ cs :=
    (readExponent_suffix _).trans ((readFraction_suffix _).trans (List.drop_suffix _ _))
  unfold readUnsigned? at number
  dsimp only at number
  split at number
  · cases number
  split at number
  · split at number
    · cases number
    · cases number
      exact left
  · cases number
    exact left

theorem readNumber?_suffix {cs rest : List Char} {v : Json}
    (number : readNumber? cs = some (.ok (v, rest))) : rest <:+ cs := by
  unfold readNumber? at number
  split at number
  · exact (readUnsigned?_suffix number).trans (List.suffix_cons _ _)
  · exact readUnsigned?_suffix number

/-! ## Reading a numeral -/

/-- Where neither a text nor an array nor an object begins, a value without parts is read. -/
theorem readValue_scalar (fuel : Nat) {c : Char} {rest : List Char}
    (scalar : c ∉ ['"', '[', '{']) : readValue (fuel + 1) (c :: rest) = readScalar (c :: rest) := by
  rw [readValue.eq_def]
  dsimp only
  split
  · next h =>
    cases h
    exact absurd (by decide) scalar
  · next h =>
    cases h
    exact absurd (by decide) scalar
  · next h =>
    cases h
    exact absurd (by decide) scalar
  · rfl

theorem BeginsNumber.readValue {cs : List Char} (begins : BeginsNumber cs) (fuel : Nat) :
    Json.readValue (fuel + 1) cs = Json.readScalar cs := by
  obtain ⟨d, rest, digit, rfl | rfl⟩ := begins
  · refine readValue_scalar fuel fun mem => ?_
    have none : ∀ c ∈ ['"', '[', '{'], c.isDigit = false := forall_mem_of_all (by decide)
    rw [none d mem] at digit
    cases digit
  · exact readValue_scalar fuel (by decide)

theorem not_isGap_of_isNumeralChar {c : Char} (numeral : isNumeralChar c = true) :
    isGap c = false := by
  have none : ∀ c ∈ [' ', '\t', '\n', '\r'], isNumeralChar c = false :=
    forall_mem_of_all (by decide)
  have other : ∀ d ∈ [' ', '\t', '\n', '\r'], c ≠ d := by
    rintro d mem rfl
    rw [none c mem] at numeral
    cases numeral
  simpa [isGap, and_assoc] using other

theorem skipGaps_of_chars {cs : List Char} (chars : ∀ c ∈ cs, isNumeralChar c = true) :
    skipGaps cs = cs := by
  cases cs with
  | nil => rfl
  | cons c rest =>
    unfold skipGaps
    rw [List.dropWhile_cons, not_isGap_of_isNumeralChar (chars c List.mem_cons_self)]
    rfl

theorem decode_eq_ok {text : String} {v : Json} :
    decode text = .ok v ↔ read text.toList = .ok v := by
  unfold decode
  split
  · next h => simp [h]
  · next h => simp [h]

/-- What a text was read as: a value stands in it, with nothing but blanks around it. -/
theorem read_eq_ok {cs : List Char} {v : Json} (ok : read cs = .ok v) :
    ∃ rest, readValue (2 * cs.length + 1) (skipGaps cs) = .ok (v, rest) ∧ skipGaps rest = [] := by
  unfold read at ok
  split at ok
  · cases ok
  · split at ok
    · cases ok
    · next w rest value =>
      split at ok
      · next none =>
        cases ok
        exact ⟨rest, value, none⟩
      · cases ok

/-- A numeral that is a JSON text is read to its end. -/
theorem Numeral.readNumber? {text : String} (numeral : Numeral text.toList) {v : Json}
    (ok : decode text = .ok v) : Json.readNumber? text.toList = some (.ok (v, [])) := by
  obtain ⟨rest, value, none⟩ := read_eq_ok (decode_eq_ok.1 ok)
  rw [skipGaps_of_chars numeral.chars, numeral.begins.readValue, Json.readScalar,
    numeral.begins.readWord?] at value
  dsimp only at value
  split at value
  · next number =>
    subst value
    have within := readNumber?_suffix number
    rw [skipGaps_of_chars fun c mem => numeral.chars c (within.subset mem)] at none
    rw [number, none]
  · cases value

/-- A finite number whose text is read back is read back in front of a delimiter. -/
theorem readScalar_render {negative : Bool} {mantissa exponent : Nat}
    (reads : (Binary64.finite negative mantissa exponent).ReadsBack) (ends : Ends tail) :
    readScalar (((Binary64.finite negative mantissa exponent).render numberStyle).toList ++ tail) =
      .ok (float (.finite negative mantissa exponent), tail) := by
  have numeral := numeral_render negative mantissa exponent
  have text : encode compact (float (.finite negative mantissa exponent)) =
      (Binary64.finite negative mantissa exponent).render numberStyle := by
    rw [encode, write, String.ofList_toList]
  unfold Binary64.ReadsBack at reads
  rw [text] at reads
  have number := numeral.readNumber? reads
  exact numeral.begins.readScalar_append number ends

end Json

end AvroRegistry
