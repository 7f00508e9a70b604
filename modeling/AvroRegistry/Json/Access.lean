import AvroRegistry.Json.Order

/-!
# Taking values apart

The ways in which a reader of a value that may be anything gets at its parts: a member under a key,
and the elements that going through a value yields. Both break down on values that have no parts of
that sort.
-/

namespace AvroRegistry.Json

/-- The member under a key of a value that should be an object and have it. -/
def item (key : String) : Json → Except Breakdown Json
  | obj members =>
    match lookup key members with
    | some v => .ok v
    | none => .error (.missingKey key)
  | _ => .error .wrongKind

/-- The elements that going through a value yields: the elements of an array, the characters of a
text, the keys of an object. -/
def elements : Json → Except Breakdown (List Json)
  | arr items => .ok items
  | str s => .ok (s.toList.map fun c => str (String.singleton c))
  | obj members => .ok ((keys members).map str)
  | _ => .error .wrongKind

/-- Whether one text occurs in another. -/
def occursIn (part : List Char) : List Char → Bool
  | [] => part.isEmpty
  | c :: rest => part.isPrefixOf (c :: rest) || occursIn part rest

/-- Whether a value is found in another one: as an element of an array, as a part of a text, as a
key of an object. -/
def foundIn (v container : Json) : Except Breakdown Bool :=
  match container with
  | arr items => .ok (v.isIn items)
  | str s =>
    match v with
    | str d => .ok (occursIn d.toList s.toList)
    | _ => .error .wrongKind
  | obj members =>
    if v.isKey then .ok (v.isIn ((keys members).map str)) else .error .wrongKind
  | _ => .error .wrongKind

/-- Requires that a value may be a key. -/
def requireKey (v : Json) : Except Breakdown Unit :=
  if v.isKey then .ok () else .error .wrongKind

@[simp] theorem item_obj (key : String) (members : List (String × Json)) (v : Json)
    (h : lookup key members = some v) : item key (obj members) = .ok v := by
  simp [item, h]

@[simp] theorem elements_arr (items : List Json) : elements (arr items) = .ok items := rfl

end AvroRegistry.Json
