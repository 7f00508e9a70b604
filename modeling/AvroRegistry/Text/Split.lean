/-!
# Splitting a text at its last separator

Qualified names are split at their last dot and rendered scopes at their last dash. `splitAtLast`
gives the parts on both sides of the last separator, and nothing when there is none; joining the
parts again gives the text back.
-/

namespace AvroRegistry.Text

/-- The parts of a text before and after the last separator, if it has one. -/
def splitAtLast (separator : Char) : List Char → Option (List Char × List Char)
  | [] => none
  | c :: rest =>
    match splitAtLast separator rest with
    | some (before, behind) => some (c :: before, behind)
    | none => if c = separator then some ([], rest) else none

/-- A text without the separator is not split. -/
theorem splitAtLast_eq_none_iff (separator : Char) (cs : List Char) :
    splitAtLast separator cs = none ↔ separator ∉ cs := by
  induction cs with
  | nil => simp [splitAtLast]
  | cons c rest ih =>
    unfold splitAtLast
    cases h : splitAtLast separator rest with
    | some parts =>
      have : separator ∈ rest := by
        by_cases hm : separator ∈ rest
        · exact hm
        · rw [← ih] at hm
          simp [h] at hm
      simp [this]
    | none =>
      have hm : separator ∉ rest := ih.1 h
      by_cases hc : c = separator
      · simp [hc]
      · simp [hc, hm, Ne.symm hc]

/-- What is split off is the last part: joining gives the text back and the part behind holds no
separator. -/
theorem splitAtLast_eq_some_iff (separator : Char) (cs before behind : List Char) :
    splitAtLast separator cs = some (before, behind) ↔
      cs = before ++ separator :: behind ∧ separator ∉ behind := by
  induction cs generalizing before with
  | nil => simp [splitAtLast]
  | cons c rest ih =>
    unfold splitAtLast
    cases h : splitAtLast separator rest with
    | some parts =>
      obtain ⟨before', behind'⟩ := parts
      have hin : separator ∈ rest := by
        by_cases hm : separator ∈ rest
        · exact hm
        · rw [← splitAtLast_eq_none_iff] at hm
          simp [h] at hm
      constructor
      · intro e
        simp only [Option.some.injEq, Prod.mk.injEq] at e
        obtain ⟨rfl, rfl⟩ := e
        obtain ⟨hr, hn⟩ := (ih before').1 h
        exact ⟨by simp [hr], hn⟩
      · rintro ⟨e, hn⟩
        cases before with
        | nil =>
          simp only [List.nil_append, List.cons.injEq] at e
          exact absurd (e.2 ▸ hin) hn
        | cons b before =>
          simp only [List.cons_append, List.cons.injEq] at e
          have := (ih before).2 ⟨e.2, hn⟩
          rw [h] at this
          simp only [Option.some.injEq, Prod.mk.injEq] at this
          simp [e.1, this.1, this.2]
    | none =>
      have hout : separator ∉ rest := (splitAtLast_eq_none_iff _ _).1 h
      by_cases hc : c = separator
      · subst hc
        constructor
        · intro e
          simp only [if_true, Option.some.injEq, Prod.mk.injEq] at e
          obtain ⟨rfl, rfl⟩ := e
          exact ⟨rfl, hout⟩
        · rintro ⟨e, hn⟩
          cases before with
          | nil => simpa using e
          | cons b before =>
            simp only [List.cons_append, List.cons.injEq] at e
            exact absurd (e.2 ▸ by simp) hout
      · constructor
        · intro e
          simp [hc] at e
        · rintro ⟨e, hn⟩
          cases before with
          | nil =>
            simp only [List.nil_append, List.cons.injEq] at e
            exact absurd e.1 hc
          | cons b before =>
            simp only [List.cons_append, List.cons.injEq] at e
            exact absurd (e.2 ▸ by simp) hout

/-- The part before the last separator, empty if there is none. -/
def beforeLast (separator : Char) (s : String) : String :=
  match splitAtLast separator s.toList with
  | some (before, _) => String.ofList before
  | none => ""

/-- The part after the last separator, the whole text if there is none. -/
def afterLast (separator : Char) (s : String) : String :=
  match splitAtLast separator s.toList with
  | some (_, behind) => String.ofList behind
  | none => s

end AvroRegistry.Text
