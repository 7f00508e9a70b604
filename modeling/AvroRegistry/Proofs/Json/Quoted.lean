import AvroRegistry.Json.Decode
import AvroRegistry.Json.Encode
import Mathlib.Data.List.Basic

/-!
# Quoted texts read back

A text in quotes is written character by character, and what is read between the quotes are pieces
that are joined afterwards. `readPieces_escapeChar` says which pieces the escape of one character
gives, `joinPieces_pieces` that joining them gives the character again, whatever stands next to
it: the two halves of a surrogate pair stay together, and a unit of the basic plane is never one of
them. Hence `readText_quoted`.
-/

namespace AvroRegistry.Json

/-! ## Hexadecimal digits -/

theorem hexValue?_digitChar : ∀ n < 16, hexValue? (Nat.digitChar n) = some n := by
  decide

/-- The value of four written digits. -/
theorem hexValue4?_hex4 {n : Nat} (small : n < 0x10000) :
    hexValue4? (Nat.digitChar (n / 4096 % 16)) (Nat.digitChar (n / 256 % 16))
      (Nat.digitChar (n / 16 % 16)) (Nat.digitChar (n % 16)) = some n := by
  have digit (m : Nat) : hexValue? (Nat.digitChar (m % 16)) = some (m % 16) :=
    hexValue?_digitChar _ (Nat.mod_lt _ (by decide))
  unfold hexValue4?
  rw [digit, digit, digit, digit]
  dsimp only
  congr 1
  omega

/-! ## Pieces of characters -/

/-- The characters that are written as a letter behind a backslash. -/
def lettered : List Char := ['"', '\\', '\n', '\r', '\t', '\x0c', '\x08']

/-- Whether a character is written without its code point. -/
def isNamed (c : Char) : Bool :=
  lettered.contains c || (decide (0x20 ≤ c.toNat) && decide (c.toNat ≤ 0x7e))

/-- The pieces that the written form of a character is read as. -/
def pieces (c : Char) : List Piece :=
  if isNamed c then [.char c]
  else if c.toNat < 0x10000 then [.unit c.toNat]
  else [.unit (0xd800 + (c.toNat - 0x10000) / 0x400), .unit (0xdc00 + (c.toNat - 0x10000) % 0x400)]

/-- Adds pieces in front of what was read. -/
def prepend (ps : List Piece) (read : Except ReadFault (List Piece × List Char)) :
    Except ReadFault (List Piece × List Char) :=
  ps.foldr consPiece read

theorem prepend_ok (ps more : List Piece) (rest : List Char) :
    prepend ps (.ok (more, rest)) = .ok (ps ++ more, rest) := by
  induction ps with
  | nil => rfl
  | cons p ps ih =>
    show consPiece p (prepend ps _) = _
    rw [ih]
    rfl

theorem readPieces_unitEscape (opening : Nat) {n : Nat} (small : n < 0x10000) {tail : List Char}
    (more : tail ≠ []) :
    readPieces opening (unitEscape n ++ tail) = consPiece (.unit n) (readPieces opening tail) := by
  have there : tail.isEmpty = false := by simpa using more
  simp only [unitEscape, hex4, List.cons_append, List.nil_append]
  rw [readPieces, there, if_neg Bool.false_ne_true, hexValue4?_hex4 small]

theorem readPieces_simpleEscape (opening : Nat) {c e : Char} (other : c ≠ 'u')
    (stands : simpleEscape? c = some e) (tail : List Char) :
    readPieces opening ('\\' :: c :: tail) = consPiece (.char e) (readPieces opening tail) := by
  rw [readPieces, if_neg other, stands]
  all_goals
    intros
    simp_all

theorem readPieces_plain (opening : Nat) {c : Char} (quote : c ≠ '"') (backslash : c ≠ '\\')
    (printable : 0x20 ≤ c.toNat) (tail : List Char) :
    readPieces opening (c :: tail) = consPiece (.char c) (readPieces opening tail) := by
  rw [readPieces, if_neg (Nat.not_lt.2 printable)]
  all_goals
    intros
    simp_all

/-- The letter of a lettered character stands for it. -/
theorem escapeChar_lettered : ∀ c ∈ lettered, ∃ letter, escapeChar c = ['\\', letter] ∧
    letter ≠ 'u' ∧ simpleEscape? letter = some c := by
  simp only [lettered, List.forall_mem_cons]
  refine ⟨⟨'"', ?_⟩, ⟨'\\', ?_⟩, ⟨'n', ?_⟩, ⟨'r', ?_⟩, ⟨'t', ?_⟩, ⟨'f', ?_⟩, ⟨'b', ?_⟩, nofun⟩
  all_goals decide

/-- Any other character is written as itself if it is printable, else by its code point. -/
theorem escapeChar_other {c : Char} (other : c ∉ lettered) :
    escapeChar c =
      if 0x20 ≤ c.toNat ∧ c.toNat ≤ 0x7e then [c]
      else if c.toNat < 0x10000 then unitEscape c.toNat
      else unitEscape (0xd800 + (c.toNat - 0x10000) / 0x400) ++
        unitEscape (0xdc00 + (c.toNat - 0x10000) % 0x400) := by
  simp only [lettered, List.mem_cons, List.not_mem_nil, or_false, not_or] at other
  obtain ⟨quote, backslash, newline, carriage, tab, feed, back⟩ := other
  unfold escapeChar
  rw [if_neg quote, if_neg backslash, if_neg newline, if_neg carriage, if_neg tab, if_neg feed,
    if_neg back]

/-- The code points: all numbers below a bound but the surrogates. -/
theorem toNat_valid (c : Char) : c.toNat < 0xd800 ∨ 0xdfff < c.toNat ∧ c.toNat < 0x110000 :=
  c.valid

/-- The written form of a character is read as its pieces. -/
theorem readPieces_escapeChar (opening : Nat) (c : Char) {tail : List Char} (more : tail ≠ []) :
    readPieces opening (escapeChar c ++ tail) = prepend (pieces c) (readPieces opening tail) := by
  by_cases named : c ∈ lettered
  · obtain ⟨letter, written, other, stands⟩ := escapeChar_lettered c named
    have single : pieces c = [.char c] := by simp [pieces, isNamed, named]
    rw [written, single]
    exact readPieces_simpleEscape opening other stands tail
  · have escaped : isNamed c = true ↔ 0x20 ≤ c.toNat ∧ c.toNat ≤ 0x7e := by
      simp [isNamed, named]
    rw [escapeChar_other named, pieces]
    simp only [escaped]
    by_cases printable : 0x20 ≤ c.toNat ∧ c.toNat ≤ 0x7e
    · rw [if_pos printable, if_pos printable]
      have quote : c ≠ '"' := fun h => named (h ▸ List.mem_cons_self)
      have backslash : c ≠ '\\' := fun h => named (h ▸ by decide)
      exact readPieces_plain opening quote backslash printable.1 tail
    rw [if_neg printable, if_neg printable]
    by_cases basic : c.toNat < 0x10000
    · rw [if_pos basic, if_pos basic]
      exact readPieces_unitEscape opening basic more
    -- Beyond the basic plane the two halves of a surrogate pair follow one another.
    · rw [if_neg basic, if_neg basic, List.append_assoc]
      have := toNat_valid c
      rw [readPieces_unitEscape opening (by omega) (by simp [unitEscape]),
        readPieces_unitEscape opening (by omega) more]
      rfl

/-- The written form of characters is read as all their pieces. -/
theorem readPieces_escaped (opening : Nat) (cs : List Char) {tail : List Char} (more : tail ≠ []) :
    readPieces opening (cs.flatMap escapeChar ++ tail) =
      prepend (cs.flatMap pieces) (readPieces opening tail) := by
  induction cs with
  | nil => rfl
  | cons c cs ih =>
    rw [List.flatMap_cons, List.append_assoc, readPieces_escapeChar opening c (by simp [more]), ih,
      List.flatMap_cons]
    simp [prepend]

/-! ## Joining the pieces -/

/-- A code point is neither half of a surrogate pair. -/
theorem toNat_not_surrogate (c : Char) :
    isHighSurrogate c.toNat = false ∧ isLowSurrogate c.toNat = false := by
  have := toNat_valid c
  unfold isHighSurrogate isLowSurrogate
  simp only [Bool.and_eq_false_iff, decide_eq_false_iff_not]
  omega

theorem joinPieces_unit {n : Nat} (single : isHighSurrogate n = false) (more : List Piece) :
    joinPieces (.unit n :: more) = unitChar n :: joinPieces more := by
  rw [joinPieces.eq_def]
  split
  · next h => cases h
  · next h => cases h
  · next h =>
    cases h
    rw [single, Bool.false_and, if_neg Bool.false_ne_true]
  · next h =>
    cases h
    rfl

/-- The pieces of a character are joined to the character, whatever follows. -/
theorem joinPieces_pieces (c : Char) (more : List Piece) :
    joinPieces (pieces c ++ more) = c :: joinPieces more := by
  unfold pieces
  split
  · rfl
  split
  · obtain ⟨notHigh, notLow⟩ := toNat_not_surrogate c
    rw [List.singleton_append, joinPieces_unit notHigh, unitChar, notHigh, notLow]
    simp
  · next basic =>
    have := toNat_valid c
    have high : isHighSurrogate (0xd800 + (c.toNat - 0x10000) / 0x400) = true := by
      simp [isHighSurrogate]
      omega
    have low : isLowSurrogate (0xdc00 + (c.toNat - 0x10000) % 0x400) = true := by
      simp [isLowSurrogate]
      omega
    rw [List.cons_append, List.singleton_append, joinPieces, high, low, Bool.and_true, if_pos rfl,
      pairChar]
    have whole : 0x10000 + (0xd800 + (c.toNat - 0x10000) / 0x400 - 0xd800) * 0x400 +
        (0xdc00 + (c.toNat - 0x10000) % 0x400 - 0xdc00) = c.toNat := by
      omega
    rw [whole, Char.ofNat_toNat]

theorem joinPieces_flatMap (cs : List Char) : joinPieces (cs.flatMap pieces) = cs := by
  induction cs with
  | nil => rfl
  | cons c cs ih => rw [List.flatMap_cons, joinPieces_pieces, ih]

/-- What is read after the opening quote of a quoted text is the text, and what follows it. -/
theorem readText_quoted (opening : Nat) (s : String) (rest : List Char) :
    readText opening (s.toList.flatMap escapeChar ++ '"' :: rest) = .ok (s.toList, rest) := by
  unfold readText
  rw [readPieces_escaped opening s.toList (List.cons_ne_nil _ _), readPieces, prepend_ok,
    List.append_nil]
  dsimp only
  rw [joinPieces_flatMap]

end AvroRegistry.Json
