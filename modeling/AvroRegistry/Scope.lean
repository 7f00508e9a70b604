import AvroRegistry.Breakdown
import AvroRegistry.Json.Literal
import AvroRegistry.Text.Blank
import AvroRegistry.Text.Split

/-!
# Scopes

Versions are numbered within a scope: a subject, usually the name of a topic, together with the
part of its messages that the schema describes. A scope is written `subject-part`; the part is what
follows the last dash, so a subject may contain dashes itself and nothing is lost by writing a scope
down.

`Scope.render` writes a scope and `Scope.parse` reads one; `Scope.make` builds one from values that
may be anything, and says what is wrong with them.
-/

namespace AvroRegistry

/-! ## Parts of a message -/

/-- The part of a message that a schema describes. -/
inductive Part where
  | key
  | value
  deriving DecidableEq, Repr, Inhabited

namespace Part

/-- The name of a part. -/
def name : Part → String
  | key => "key"
  | value => "value"

/-- The part with a name. -/
def ofName? (s : String) : Option Part :=
  if s = "key" then some key else if s = "value" then some value else none

/-- The part that a value names. -/
def ofJson? : Json → Option Part
  | .str s => ofName? s
  | _ => none

theorem ofName?_name (p : Part) : ofName? p.name = some p := by cases p <;> decide

theorem name_of_ofName? {s : String} {p : Part} (h : ofName? s = some p) : s = p.name := by
  unfold ofName? at h
  split at h
  · next hs => cases h; exact hs
  · split at h
    · next hs => cases h; exact hs
    · simp at h

end Part

/-! ## Scopes -/

/-- A subject and a part of its messages. The subject is not blank. -/
structure Scope where
  subject : String
  part : Part
  subject_not_blank : Text.isBlankText subject = false
  deriving DecidableEq

/-- Why something is no scope. -/
inductive ScopeError where
  | emptySubject
  | unknownPart (part : Json)
  | untypedPart (part : Json)
  | missingPart (rendered : String)

/-- The message of a scope error. -/
def ScopeError.message : ScopeError → String
  | .emptySubject => "Subject name cannot be empty"
  | .unknownPart part =>
    "Invalid schema type '" ++ part.display ++ "'. Valid types: ['key', 'value']"
  | .untypedPart part => "schema_type must be a SchemaType, got " ++ part.literal
  | .missingPart rendered => "Invalid scope key '" ++ rendered ++ "': missing type suffix"

/-- The breakdown that a scope error is where nothing handles it. -/
def ScopeError.breakdown (e : ScopeError) : Breakdown := .badValue e.message

/-- The part that a value names, or an error. -/
def Part.ofJson (v : Json) : Except ScopeError Part :=
  match Part.ofJson? v with
  | some p => .ok p
  | none => .error (.unknownPart v)

namespace Scope

/-- The scope of a subject and a part. -/
def ofSubject (subject : String) (part : Part) : Except ScopeError Scope :=
  if h : Text.isBlankText subject = false then .ok ⟨subject, part, h⟩ else .error .emptySubject

/-- The scope of a value that should be a subject, and a part. -/
def ofValues (subject : Json) (part : Part) : Except ScopeError Scope :=
  match subject with
  | .str s => ofSubject s part
  | _ => .error .emptySubject

/-- The scope of two values, the part being looked at first. -/
def make (subject part : Json) : Except ScopeError Scope :=
  match Part.ofJson part with
  | .error e => .error e
  | .ok p => ofValues subject p

/-- The scope of a subject and a value that is not a part but stands where one belongs: there is
none. -/
def makeUntyped (subject part : Json) : ScopeError :=
  match ofValues subject .key with
  | .error e => e
  | .ok _ => .untypedPart part

/-- A scope in writing. -/
def render (scope : Scope) : String := scope.subject ++ "-" ++ scope.part.name

/-- The scope that a text is the writing of. -/
def parse (rendered : String) : Except ScopeError Scope :=
  match Text.splitAtLast '-' rendered.toList with
  | none => .error (.missingPart rendered)
  | some (subject, part) =>
    make (.str (String.ofList subject)) (.str (String.ofList part))

end Scope

end AvroRegistry
