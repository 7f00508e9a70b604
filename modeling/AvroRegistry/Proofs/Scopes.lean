import AvroRegistry.Scope

/-!
# Scopes in writing

Nothing is lost by writing a scope down: it is read back as it was, so two scopes are written
differently, and no text without a dash is the writing of a scope. Nothing else is read either: a
text that is read as a scope is the writing of that scope.
-/

namespace AvroRegistry

theorem Part.dash_not_mem_name (p : Part) : '-' ∉ p.name.toList := by
  cases p <;> decide

namespace Scope

theorem toList_render (scope : Scope) :
    scope.render.toList = scope.subject.toList ++ '-' :: scope.part.name.toList := by
  unfold render
  rw [String.toList_append, String.toList_append]
  simp

theorem splitAtLast_render (scope : Scope) :
    Text.splitAtLast '-' scope.render.toList =
      some (scope.subject.toList, scope.part.name.toList) :=
  (Text.splitAtLast_eq_some_iff _ _ _ _).2 ⟨scope.toList_render, scope.part.dash_not_mem_name⟩

/-- A scope that was written down is read back. -/
theorem parse_render (scope : Scope) : parse scope.render = .ok scope := by
  unfold parse
  rw [splitAtLast_render]
  dsimp only
  rw [String.ofList_toList, String.ofList_toList]
  have named : Part.ofJson? (.str scope.part.name) = some scope.part := Part.ofName?_name _
  unfold make Part.ofJson
  rw [named]
  show ofSubject scope.subject scope.part = .ok scope
  unfold ofSubject
  rw [dif_pos scope.subject_not_blank]

/-- What a subject and a part are read as keeps the one and is named by the other. -/
theorem make_eq_ok {subject part : String} {scope : Scope}
    (made : make (.str subject) (.str part) = .ok scope) :
    scope.subject = subject ∧ scope.part.name = part := by
  unfold make Part.ofJson at made
  cases named : Part.ofJson? (.str part) with
  | none =>
    rw [named] at made
    cases made
  | some p =>
    rw [named] at made
    change ofSubject subject p = .ok scope at made
    unfold ofSubject at made
    split at made
    · cases made
      exact ⟨rfl, (Part.name_of_ofName? named).symm⟩
    · cases made

/-- A text that is read as a scope is the writing of that scope. -/
theorem render_of_parse {text : String} {scope : Scope} (read : parse text = .ok scope) :
    scope.render = text := by
  unfold parse at read
  cases parted : Text.splitAtLast '-' text.toList with
  | none =>
    rw [parted] at read
    cases read
  | some halves =>
    obtain ⟨subject, part⟩ := halves
    rw [parted] at read
    obtain ⟨before, behind⟩ := make_eq_ok read
    obtain ⟨joined, -⟩ := (Text.splitAtLast_eq_some_iff _ _ _ _).1 parted
    apply String.toList_injective
    rw [toList_render, before, behind, String.toList_ofList, String.toList_ofList, joined]

theorem parse_eq_ok_iff {text : String} {scope : Scope} :
    parse text = .ok scope ↔ scope.render = text := by
  refine ⟨render_of_parse, ?_⟩
  rintro rfl
  exact scope.parse_render

/-- The texts that are read as scopes are the writings of scopes. -/
theorem exists_parse_iff (text : String) :
    (∃ scope, parse text = .ok scope) ↔ ∃ scope : Scope, scope.render = text :=
  exists_congr fun _ => parse_eq_ok_iff

/-- Two scopes are written differently. -/
theorem render_injective {a b : Scope} (same : a.render = b.render) : a = b := by
  have read := a.parse_render
  rw [same, b.parse_render] at read
  cases read
  rfl

/-- The writing of a scope has a dash. -/
theorem render_ne {text : String} (dashless : '-' ∉ text.toList) (scope : Scope) :
    scope.render ≠ text := by
  rintro rfl
  apply dashless
  rw [toList_render]
  exact List.mem_append_right _ List.mem_cons_self

end Scope

end AvroRegistry
