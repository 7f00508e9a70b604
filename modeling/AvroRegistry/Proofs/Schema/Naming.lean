import AvroRegistry.Proofs.Json.Values
import AvroRegistry.Proofs.Runs
import AvroRegistry.Schema.Normalize

/-!
# The two ways of naming a type

Accepting a schema carries the namespace around a type as a `Space`, normalizing it carries the
text alone. `Space.Shows` relates the two, and the results below say that the relation is kept: a
named type gets the same full name on both sides, and the namespace its parts are in is related
again. A reference means the same full name as long as accepting can make sense of it.
-/

namespace AvroRegistry.Schema

/-! ## Dots -/

theorem isDotted_iff (name : String) : isDotted name = true ↔ '.' ∈ name.toList := by
  unfold isDotted
  rw [List.contains_iff_mem]

theorem splitAtLast_append {name : String} (plain : isDotted name = false) (space : String) :
    Text.splitAtLast '.' (space ++ "." ++ name).toList = some (space.toList, name.toList) := by
  rw [Text.splitAtLast_eq_some_iff]
  refine ⟨by simp, fun dotted => ?_⟩
  rw [← isDotted_iff, plain] at dotted
  cases dotted

/-- What is before the last dot of a name put behind a namespace is the namespace, if the name has
no dot of its own. -/
theorem spaceOf_append {name : String} (plain : isDotted name = false) (space : String) :
    spaceOf (space ++ "." ++ name) = space := by
  unfold spaceOf Text.beforeLast
  rw [splitAtLast_append plain]
  exact String.ofList_toList

/-- And what is behind it is the name. -/
theorem unqualified_append {name : String} (plain : isDotted name = false) (space : String) :
    unqualified (space ++ "." ++ name) = name := by
  unfold unqualified Text.afterLast
  rw [splitAtLast_append plain]
  exact String.ofList_toList

/-- A name without a dot is in no namespace. -/
theorem spaceOf_plain {name : String} (plain : isDotted name = false) : spaceOf name = "" := by
  have split : Text.splitAtLast '.' name.toList = none := by
    rw [Text.splitAtLast_eq_none_iff, ← isDotted_iff, plain]
    exact Bool.false_ne_true
  unfold spaceOf Text.beforeLast
  rw [split]

theorem qualify_dotted {name : String} (dotted : isDotted name = true) (space : String) :
    qualify name space = name := by
  simp [qualify, dotted]

theorem qualify_nowhere (name : String) : qualify name "" = name := by
  simp [qualify]

theorem qualify_plain {name space : String} (plain : isDotted name = false) (some : space ≠ "") :
    qualify name space = space ++ "." ++ name := by
  simp [qualify, plain, some]

theorem dotted_append (space name : String) : isDotted (space ++ "." ++ name) = true := by
  simp [isDotted_iff]

/-- A name in a namespace is that name, or is put behind it. -/
theorem qualify_cases (name space : String) :
    qualify name space = name ∨
      isDotted name = false ∧ qualify name space = space ++ "." ++ name := by
  unfold qualify
  split
  · exact .inl rfl
  · next h =>
    simp only [Bool.or_eq_true, not_or, Bool.not_eq_true] at h
    exact .inr ⟨h.1, rfl⟩

/-- A full name is its own full name. -/
theorem qualify_qualify (name space : String) :
    qualify (qualify name space) space = qualify name space := by
  obtain same | ⟨-, longer⟩ := qualify_cases name space
  · rw [same, same]
  · rw [longer, qualify_dotted (dotted_append space name)]

/-! ## Namespaces -/

/-- A namespace of accepting stands for a text of normalizing: a text for itself, another value for
the text it is shown as, which must not be empty. -/
inductive Space.Shows : Space → String → Prop where
  | text (s : String) : Shows (.text s) s
  | other (v : Json) (shown : v.display ≠ "") : Shows (.other v) v.display

/-- The namespace that a named type is put in, as normalizing finds it. -/
def enclosing (space : String) (members : List (String × Json)) : String :=
  let own := (Json.lookup "namespace" members).getD (.str space)
  if own.truthy then own.display else ""

theorem truthy_str (s : String) : (Json.str s).truthy = (s != "") := rfl

/-- A text in the place of a namespace stands for itself, the empty one included. -/
theorem enclosing_text (s : String) :
    (if (Json.str s).truthy then (Json.str s).display else "") = s := by
  rw [truthy_str]
  by_cases empty : s = ""
  · subst empty
    rfl
  · rw [if_pos (by simpa using empty)]
    rfl

/-- A named type is put in the same namespace on both sides. -/
theorem within_shows {outer : Space} {space : String} (stands : outer.Shows space)
    (members : List (String × Json)) :
    (outer.within members).Shows (enclosing space members) := by
  unfold Space.within enclosing
  cases own : Json.lookup "namespace" members with
  | none =>
    dsimp only [Option.getD_none]
    rw [enclosing_text]
    exact stands
  | some v =>
    dsimp only [Option.getD_some]
    cases v with
    | str s =>
      rw [enclosing_text]
      exact .text s
    | _ =>
      dsimp only
      split
      · next speaks => exact .other _ (Json.display_ne_empty speaks)
      · exact .text ""

/-! ## Named types -/

/-- A type with a name is introduced under its full name, once its aliases are read. -/
theorem introduce_named {space name : String} {members : List (String × Json)}
    (named : Json.lookup "name" members = some (.str name)) (filled : name ≠ "") (type : Json) :
    introduce space type members = (do
      let aliases ← lift
        (typeAliases (spaceOf (qualify name (enclosing space members))) members)
      modify fun defined => qualify name (enclosing space members) :: defined
      return (qualify name (enclosing space members), aliases)) := by
  unfold introduce
  rw [named]
  dsimp only
  rw [if_neg filled]
  rfl

/-- A type without a name, or with an empty one, is not introduced. -/
theorem introduce_unnamed {members : List (String × Json)}
    (unnamed : ∀ name, Json.lookup "name" members = some (.str name) → name = "")
    (space : String) (type : Json) :
    introduce space type members = reject (.unnamed type) := by
  unfold introduce
  cases named : Json.lookup "name" members with
  | none => rfl
  | some v =>
    cases v with
    | str name =>
      dsimp only
      rw [if_pos (unnamed name named)]
      rfl
    | _ => rfl

theorem lift_eq_ok {α : Type} {result : Except Breakdown α} {a : α}
    {defined defined' : List String} :
    lift result defined = .ok (a, defined') ↔ result = .ok a ∧ defined' = defined := by
  cases result with
  | error b =>
    constructor
    · intro h
      cases h
    · rintro ⟨h, -⟩
      cases h
  | ok b =>
    constructor
    · intro h
      cases h
      exact ⟨rfl, rfl⟩
    · rintro ⟨h, rfl⟩
      cases h
      rfl

/-- Introducing a type succeeds on a name that is a text and not empty, with aliases that can be
sorted; its full name is defined from there on. -/
theorem introduce_eq_ok {space : String} {type : Json} {members : List (String × Json)}
    {full : String} {aliases : List Json} {defined defined' : List String}
    (ok : introduce space type members defined = .ok ((full, aliases), defined')) :
    ∃ name, Json.lookup "name" members = some (.str name) ∧ name ≠ "" ∧
      full = qualify name (enclosing space members) ∧
      typeAliases (spaceOf full) members = .ok aliases ∧ defined' = full :: defined := by
  by_cases unnamed : ∀ name, Json.lookup "name" members = some (.str name) → name = ""
  · rw [introduce_unnamed unnamed] at ok
    cases ok
  · obtain ⟨name, absent⟩ := not_forall.1 unnamed
    obtain ⟨named, filled⟩ := Classical.not_imp.1 absent
    rw [introduce_named named filled, Run.bind_eq_ok] at ok
    obtain ⟨found, between, read, rest⟩ := ok
    obtain ⟨sorted, rfl⟩ := lift_eq_ok.1 read
    cases rest
    exact ⟨name, named, filled, rfl, sorted, rfl⟩

/-- The full name of a type whose name is a text is the one that normalizing gives it, and so is
the namespace its parts are in. -/
theorem fullNameOf_str {outer inner : Space} {space name full : String}
    {members : List (String × Json)} {names names' : Names} (stands : outer.Shows space)
    (named : Json.lookup "name" members = some (.str name))
    (accepted : fullNameOf outer members names = .ok ((full, inner), names')) :
    full = qualify name (enclosing space members) ∧ inner.Shows (spaceOf full) ∧
      names' = names := by
  unfold fullNameOf at accepted
  rw [named] at accepted
  dsimp only at accepted
  by_cases dotted : isDotted name = true
  · rw [if_pos dotted] at accepted
    cases accepted
    exact ⟨(qualify_dotted dotted _).symm, .text _, rfl⟩
  · rw [if_neg dotted] at accepted
    have plain : isDotted name = false := by simpa using dotted
    have around := within_shows stands members
    generalize outer.within members = own at accepted around
    generalize enclosing space members = within at around ⊢
    split at accepted
    · cases accepted
      cases around
      refine ⟨(qualify_nowhere _).symm, ?_, rfl⟩
      rw [spaceOf_plain plain]
      exact .text ""
    · next nowhere =>
      cases accepted
      cases around with
      | text =>
        have some : within ≠ "" := fun empty => nowhere (empty ▸ rfl)
        refine ⟨(qualify_plain plain some).symm, ?_, rfl⟩
        show Space.Shows (.text within) (spaceOf (within ++ "." ++ name))
        rw [spaceOf_append plain]
        exact .text within
      | other v shown =>
        refine ⟨(qualify_plain plain shown).symm, ?_, rfl⟩
        show Space.Shows (.other v) (spaceOf (v.display ++ "." ++ name))
        rw [spaceOf_append plain]
        exact .other v shown

/-- A reference that accepting can make sense of means the full name that normalizing looks up
first. -/
theorem referent_eq_ok {outer : Space} {space name full : String} (stands : outer.Shows space)
    (meant : referent outer name = .ok full) : full = qualify name space := by
  cases stands with
  | text s =>
    cases meant
    rfl
  | other v shown =>
    unfold referent at meant
    dsimp only at meant
    split at meant
    · next dotted =>
      cases meant
      exact (qualify_dotted dotted _).symm
    · cases meant

end AvroRegistry.Schema
