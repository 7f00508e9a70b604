import AvroRegistry.Storage.Database

/-!
# The index of versions

Every scope has its own numbers, which start at one and only go up. A version is never removed: it
is marked as deleted, so its number is not given out again, and *latest* is the live version with
the highest number.

`Versions` is what the index holds in memory, one list for all scopes in the order in which versions
were appended. Operations write to the file first and remember second. `Versions.recover` reads a
file back and insists that the numbers of each scope go up.
-/

namespace AvroRegistry

/-- The versions of all scopes, those of each scope in ascending order. -/
structure Versions where
  rows : List Version := []
  deriving DecidableEq

/-- Which version of a scope is meant. -/
inductive Selector where
  | latest
  | number (n : Int)
  deriving DecidableEq, Repr

/-- A selector as it is shown. -/
def Selector.toJson : Selector → Json
  | .latest => .str "latest"
  | .number n => .int n

namespace Versions

/-! ## Looking up -/

/-- All versions of a scope, oldest first. -/
def ofScope (v : Versions) (scope : Scope) : List Version := v.rows.filter fun r => r.scope == scope

/-- The live versions of a scope, oldest first. -/
def history (v : Versions) (scope : Scope) : List Version :=
  (v.ofScope scope).filter fun r => !r.deleted

/-- The highest number ever given out in a scope, zero if there is none. -/
def maxNumber (v : Versions) (scope : Scope) : Int :=
  match (v.ofScope scope).getLast? with
  | some r => r.number
  | none => 0

/-- The live version of a scope that holds a schema. -/
def holding? (v : Versions) (scope : Scope) (schemaId : Json) : Option Version :=
  (v.ofScope scope).find? fun r => r.schemaId.equal schemaId && !r.deleted

/-- The version of a scope with a number, live or deleted. -/
def withNumber? (v : Versions) (scope : Scope) (n : Int) : Option Version :=
  (v.ofScope scope).find? fun r => r.number == n

/-- The live version of a scope that a selector means. -/
def select? (v : Versions) (scope : Scope) : Selector → Option Version
  | .latest => (v.history scope).getLast?
  | .number n => (v.withNumber? scope n).filter fun r => !r.deleted

/-- The fault that a version is not there. -/
def missing (scope : Scope) (selector : Json) : Failure :=
  .fault (.versionNotFound (.str scope.render) selector)

/-- The live version of a scope that a selector means, which has to be there. -/
def get (v : Versions) (scope : Scope) (selector : Selector) : Except Failure Version :=
  match v.select? scope selector with
  | some r => .ok r
  | none => .error (missing scope selector.toJson)

/-- The selector that a value stands for as it is: the word `latest`, or any number. -/
def selectorOf? : Json → Option Selector
  | .str "latest" => some .latest
  | v => v.keyInt?.map .number

/-- The live version of a scope that a value means as it is. -/
def lookUp (v : Versions) (scope : Scope) (selector : Json) : Except Failure Version :=
  if selector.isKey then
    match (selectorOf? selector).bind (v.select? scope) with
    | some r => .ok r
    | none => .error (missing scope selector)
  else .error (.breakdown .wrongKind)

/-- The numbers of the live versions of a scope, of which there must be some. -/
def liveNumbers (v : Versions) (scope : Scope) : Except Failure (List Int) :=
  match v.history scope with
  | [] => .error (.fault (.subjectNotFound (.str scope.render)))
  | live => .ok (live.map (·.number))

/-- The scopes of a list of versions, each once. -/
def scopesOf : List Version → List Scope
  | [] => []
  | r :: rest =>
    let others := scopesOf rest
    if others.contains r.scope then others else r.scope :: others

/-- The scopes with live versions, each once. -/
def liveScopes (v : Versions) : List Scope := scopesOf (v.rows.filter fun r => !r.deleted)

/-! ## Changing -/

/-- The versions with one more. -/
def add (v : Versions) (r : Version) : Versions := ⟨v.rows ++ [r]⟩

/-- The versions with some numbers of a scope marked as deleted. -/
def mark (v : Versions) (scope : Scope) (numbers : List Int) : Versions :=
  ⟨v.rows.map fun r =>
    if r.scope = scope ∧ r.number ∈ numbers then { r with deleted := true } else r⟩

/-- Appends a version that holds a schema, and gives its number. A live version of the scope may not
hold it already. -/
def append (scope : Scope) (schemaId : Json) : Step (Backed Versions) Int := do
  let v ← Backed.inMemory
  match v.holding? scope schemaId with
  | some existing => Step.refuse (.alreadyExists existing)
  | none =>
    let r : Version := ⟨scope, v.maxNumber scope + 1, schemaId, false⟩
    Backed.persist (Storage.insertVersion r.draft)
    Backed.remember (v.add r)
    return r.number

/-- Deletes the version found by a look-up, and gives its number. -/
def deleteFound (scope : Scope) (look : Versions → Except Failure Version) :
    Step (Backed Versions) Int := do
  let v ← Backed.inMemory
  match look v with
  | .error f => throw f
  | .ok r =>
    Backed.persist (Storage.markDeleted scope [.int r.number])
    Backed.remember (v.mark scope [r.number])
    return r.number

/-- Deletes a live version of a scope, and gives its number. -/
def delete (scope : Scope) (selector : Selector) : Step (Backed Versions) Int :=
  deleteFound scope fun v => v.get scope selector

/-- Deletes all live versions of a scope, and gives their numbers. -/
def deleteAll (scope : Scope) : Step (Backed Versions) (List Int) := do
  let v ← Backed.inMemory
  match (v.history scope).map (·.number) with
  | [] => return []
  | numbers =>
    Backed.persist (Storage.markDeleted scope (numbers.map .int))
    Backed.remember (v.mark scope numbers)
    return numbers

/-! ## Recovery -/

/-- The fault that the number of a row read back is not above those before it. -/
def outOfOrder (scope : Scope) (number : Cell) : Failure :=
  .fault (.internal
    (.str ("Version log out of order for '" ++ scope.render ++ "' at version " ++
      number.toJson.display)) none)

/-- The number of a row read back, which has to be above the highest one before it. Only an integer
can be one. -/
def numberAbove (highest : Int) (r : VersionRow) : Except Failure Int :=
  match r.number with
  | .integer n => if n ≤ highest then .error (outOfOrder r.scope r.number) else .ok n
  | .real x =>
    if Binary64.intLt highest x then .error (.breakdown .wrongKind)
    else .error (outOfOrder r.scope r.number)
  | _ => .error (.breakdown .wrongKind)

/-- The index of rows read back by scope and number, added to what was read before. -/
def recoverFrom (v : Versions) : List VersionRow → Except Failure Versions
  | [] => .ok v
  | r :: rest =>
    match numberAbove (v.maxNumber r.scope) r with
    | .error f => .error f
    | .ok n => recoverFrom (v.add ⟨r.scope, n, r.schemaId.toJson, r.deleted⟩) rest

/-- The index that a file holds. -/
def recover : Step Storage Versions := do
  Storage.prepare
  match recoverFrom {} (← Storage.loadVersions) with
  | .ok v => return v
  | .error f => throw f

end Versions

end AvroRegistry
