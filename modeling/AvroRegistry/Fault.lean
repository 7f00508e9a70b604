import AvroRegistry.Compatibility.Mode
import AvroRegistry.Compatibility.Violation
import AvroRegistry.Schema.Diagnosis
import AvroRegistry.Version

/-!
# Faults of a registry

Everything a registry refuses to do is a `Fault`: one constructor for each cause, with what its
message and details need. A fault is shown as a code for programs, a message for people, and
details as an object. What a fault is about may be any value: messages display it, details keep it.

A `Failure` is how an operation can end without a result: with a fault, or with a breakdown that no
rule of the registry accounts for.
-/

namespace AvroRegistry

/-- A reason for which a registry refuses an operation. -/
inductive Fault where
  /-- Any other refusal, with its code and details. -/
  | general (message code details : Json)
  /-- Something was not found; the faults below say what. -/
  | notFound (message code details : Json)
  /-- An argument is malformed. -/
  | invalidArgument (message parameter value : Json)
  /-- A value does not name a compatibility mode. -/
  | invalidMode (value : Json)
  /-- A schema could not be brought into canonical form. -/
  | schemaParse (diagnostic : Json)
  /-- A schema violates the mode in effect. -/
  | incompatible (violations : List Compatibility.Violation) (mode : Compatibility.Mode)
      (scope : Json)
  /-- A scope has no live version. -/
  | subjectNotFound (scope : Json)
  /-- A version is absent or deleted. -/
  | versionNotFound (scope version : Json)
  /-- No schema was stored under an id. -/
  | schemaIdNotFound (id : Json)
  /-- A schema is not registered in a scope. -/
  | schemaNotFound (scope fingerprint : Json)
  /-- A live version of the scope already holds the schema. -/
  | alreadyExists (existing : Version)
  /-- A store is corrupt or its file failed; the cause is quoted if there is one. -/
  | internal (message : Json) (cause : Option String)

/-- The names of the compatibility modes as a literal. -/
def modeNames : String := Json.literalTexts (Compatibility.Mode.all.map Compatibility.Mode.name)

/-- What is said of a value that names no mode. -/
def invalidModeMessage (value : Json) : String :=
  "Invalid compatibility mode " ++ value.literal ++ ". Valid modes: " ++ modeNames

/-- A text that may be missing, as a value. -/
def Json.ofText? : Option String → Json
  | some s => .str s
  | none => .null

/-- A value, or another one in place of a value that says nothing. -/
def Json.orElse (v other : Json) : Json := if v.truthy then v else other

namespace Fault

/-- The code of a fault that has none of its own. -/
def usualCode : Json := .str "REGISTRY_ERROR"

/-- The code of a fault. -/
def code : Fault → Json
  | general _ code _ => code.orElse usualCode
  | notFound _ code _ => code.orElse usualCode
  | invalidArgument .. => .str "INVALID_ARGUMENT"
  | invalidMode _ => .str "INVALID_MODE"
  | schemaParse _ => .str "SCHEMA_PARSE_ERROR"
  | incompatible .. => .str "INCOMPATIBLE_SCHEMA"
  | subjectNotFound _ => .str "SUBJECT_NOT_FOUND"
  | versionNotFound .. => .str "VERSION_NOT_FOUND"
  | schemaIdNotFound _ => .str "SCHEMA_ID_NOT_FOUND"
  | schemaNotFound .. => .str "SCHEMA_NOT_FOUND"
  | alreadyExists _ => .str "ALREADY_EXISTS"
  | internal .. => .str "INTERNAL_ERROR"

/-- What is said of a schema that violates a mode. -/
def incompatibleMessage (violations : List Compatibility.Violation) (mode : Compatibility.Mode)
    (scope : Json) : String :=
  "Schema is incompatible" ++
    (if scope.truthy then " for subject '" ++ scope.display ++ "'" else "") ++
    " under " ++ mode.name ++ " with " ++ toString violations.length ++ " violation(s):\n" ++
    "\n".intercalate (violations.map (·.line))

/-- The message of a fault. -/
def message : Fault → Json
  | general message _ _ => message
  | notFound message _ _ => message
  | invalidArgument message _ _ => message
  | invalidMode value => .str (invalidModeMessage value)
  | schemaParse diagnostic => .str ("Invalid schema: " ++ diagnostic.display)
  | incompatible violations mode scope => .str (incompatibleMessage violations mode scope)
  | subjectNotFound scope => .str ("Subject '" ++ scope.display ++ "' not found")
  | versionNotFound scope version =>
    .str ("Version " ++ version.display ++ " not found for subject '" ++ scope.display ++ "'")
  | schemaIdNotFound id => .str ("Schema id " ++ id.display ++ " not found")
  | schemaNotFound scope fingerprint =>
    .str ("Schema " ++ fingerprint.display ++ " is not registered under subject '" ++
      scope.display ++ "'")
  | alreadyExists existing =>
    .str ("Schema id " ++ existing.schemaId.display ++ " already registered as version " ++
      toString existing.number ++ " of subject '" ++ existing.scope.render ++ "'")
  | internal message _ => message

/-- The details of a fault. -/
def details : Fault → Json
  | general _ _ details => details.orElse (.obj [])
  | notFound _ _ details => details.orElse (.obj [])
  | invalidArgument _ parameter value =>
    .obj [("parameter", parameter), ("value", .str value.literal)]
  | invalidMode value =>
    .obj [("parameter", .str "compatibility"), ("value", .str value.literal)]
  | schemaParse diagnostic => .obj [("diagnostic", diagnostic)]
  | incompatible violations mode scope =>
    .obj [("mode", .str mode.name), ("scope", scope),
      ("violations", .arr (violations.map (·.toJson)))]
  | subjectNotFound scope => .obj [("subject", scope)]
  | versionNotFound scope version => .obj [("subject", scope), ("version", version)]
  | schemaIdNotFound id => .obj [("schema_id", id)]
  | schemaNotFound scope fingerprint => .obj [("subject", scope), ("fingerprint", fingerprint)]
  | alreadyExists existing =>
    .obj [("subject", .str existing.scope.render), ("version", .int existing.number),
      ("schema_id", existing.schemaId)]
  | internal _ cause => .obj [("cause", Json.ofText? cause)]

/-- A fault as an object. -/
def toJson (f : Fault) : Json :=
  .obj [("code", f.code), ("message", f.message), ("details", f.details)]

end Fault

/-- How an operation can end without a result. -/
inductive Failure where
  | fault (f : Fault)
  | breakdown (b : Breakdown)

/-- A step of an operation on a state: it ends with a result or a failure, and in a state. The
state after a failure is whatever the step made of it. -/
abbrev Step (σ α : Type) : Type := ExceptT Failure (StateM σ) α

namespace Step

/-- Ends with a fault. -/
def refuse {σ α : Type} (f : Fault) : Step σ α := throw (.fault f)

/-- Ends with a breakdown. -/
def collapse {σ α : Type} (b : Breakdown) : Step σ α := throw (.breakdown b)

/-- The result of a computation that can break down. -/
def ofBreakdown {σ α : Type} : Except Breakdown α → Step σ α
  | .ok a => pure a
  | .error b => collapse b

/-- The outcome of a step from a state, and the state after it. -/
def outcome {σ α : Type} (step : Step σ α) (s : σ) : Except Failure α × σ :=
  (ExceptT.run step).run s

end Step

/-- The failure that a refused schema is. -/
def Schema.Refusal.failure : Schema.Refusal → Failure
  | .diagnosis d => .fault (.schemaParse (.str d.message))
  | .breakdown b => .breakdown b

end AvroRegistry
