/-!
# Blank characters

The characters that count as white space around a name or a text: the Unicode white space
characters together with the four ASCII separators 0x1c to 0x1f. A zero-width space or a byte
order mark is not among them.
-/

namespace AvroRegistry.Text

/-- Whether a character is white space. -/
def isBlank (c : Char) : Bool :=
  let n := c.toNat
  (0x09 ≤ n && n ≤ 0x0d) || (0x1c ≤ n && n ≤ 0x20) || n == 0x85 || n == 0xa0 || n == 0x1680 ||
    (0x2000 ≤ n && n ≤ 0x200a) || n == 0x2028 || n == 0x2029 || n == 0x202f || n == 0x205f ||
    n == 0x3000

/-- A text without the blanks at its two ends. -/
def trim (cs : List Char) : List Char :=
  ((cs.dropWhile isBlank).reverse.dropWhile isBlank).reverse

/-- Whether a text is empty or holds blanks only. -/
def isBlankText (s : String) : Bool := s.toList.all isBlank

/-- Every character that core calls white space is blank. -/
theorem isBlank_of_isWhitespace (c : Char) (h : c.isWhitespace = true) : isBlank c = true := by
  simp only [Char.isWhitespace, Bool.or_eq_true, decide_eq_true_eq] at h
  rcases h with ((rfl | rfl) | rfl) | rfl <;> decide

/-- A text is blank exactly when trimming leaves nothing of it. -/
theorem trim_eq_nil_iff (cs : List Char) : trim cs = [] ↔ cs.all isBlank = true := by
  have drop_nil : ∀ l : List Char, l.dropWhile isBlank = [] ↔ ∀ c ∈ l, isBlank c = true := by
    intro l
    induction l with
    | nil => simp
    | cons c l ih => by_cases hc : isBlank c = true <;> simp [hc, ih]
  constructor
  · intro h
    have h' : ∀ c ∈ cs.dropWhile isBlank, isBlank c = true := by
      have := (drop_nil (cs.dropWhile isBlank).reverse).1 (by simpa [trim] using h)
      simpa using this
    have hnil : cs.dropWhile isBlank = [] := by
      cases hd : cs.dropWhile isBlank with
      | nil => rfl
      | cons c l =>
        have hc : isBlank c = true := h' c (by simp [hd])
        have := List.head?_dropWhile_not isBlank cs
        simp [hd, hc] at this
    exact List.all_eq_true.2 ((drop_nil cs).1 hnil)
  · intro h
    have hnil := (drop_nil cs).2 (List.all_eq_true.1 h)
    simp [trim, hnil]

end AvroRegistry.Text
