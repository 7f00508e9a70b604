import AvroRegistry.Compatibility.Check
import AvroRegistry.Store.Config
import AvroRegistry.Store.Schemas
import AvroRegistry.Store.Versions

/-!
# The registry

A registry keeps the versions of schemas for scopes and admits a new version only if it is
compatible with the earlier ones, as the mode in effect asks. This module holds its state, the
checks on arguments, and its operations.

Every operation is a `Step` on a `Registry`. Arguments are checked and schemas brought into
canonical form before anything is looked at; a schema is admitted before anything is changed. A
registry with a file writes every change to the file before it makes it in memory.

`Operation` names the operations with their arguments and `Registry.perform` carries one out, so a
run of a registry is a list of operations.
-/

namespace AvroRegistry

/-- The state of a registry: three stores in memory, and the file behind them if there is one. -/
structure Registry where
  schemas : Schemas := {}
  versions : Versions := {}
  config : Config := {}
  storage : Option Storage := none

namespace Registry

/-! ## Opening -/

/-- A registry over a file, or over nothing, with a default for the global mode. The state of the
step is what is known of the file. -/
def openWith (default : Compatibility.Mode) : Step (Option Storage) Registry := fun storage =>
  match storage with
  | none => (.ok { config := { global := default } }, none)
  | some handle =>
    let load : Step Storage (Schemas × Versions × Config) := do
      let schemas ← Schemas.recover
      let versions ← Versions.recover
      let config ← Config.recover default
      return (schemas, versions, config)
    match load.outcome handle with
    | (.ok (schemas, versions, config), handle) =>
      (.ok ⟨schemas, versions, config, some handle⟩, some handle)
    | (.error f, handle) => (.error f, some handle)

/-! ## Steps on a single store -/

/-- A step on the store of schemas. -/
def onSchemas {α : Type} (step : Step (Backed Schemas) α) : Step Registry α := fun r =>
  let (outcome, b) := step.outcome ⟨r.schemas, r.storage⟩
  (outcome, { r with schemas := b.memory, storage := b.storage })

/-- A step on the index of versions. -/
def onVersions {α : Type} (step : Step (Backed Versions) α) : Step Registry α := fun r =>
  let (outcome, b) := step.outcome ⟨r.versions, r.storage⟩
  (outcome, { r with versions := b.memory, storage := b.storage })

/-- A step on the store of modes. -/
def onConfig {α : Type} (step : Step (Backed Config) α) : Step Registry α := fun r =>
  let (outcome, b) := step.outcome ⟨r.config, r.storage⟩
  (outcome, { r with config := b.memory, storage := b.storage })

/-- The result of a computation that can fail, as a step. -/
def settle {α : Type} : Except Failure α → Step Registry α
  | .ok a => pure a
  | .error f => throw f

/-! ## Arguments -/

/-- The scope that a subject and a part given as arguments make. -/
def scopeOf (subject : Json) (part : Argument Part) : Except Failure Scope :=
  match Scope.ofValues subject .key with
  | .error _ =>
    .error (.fault (.invalidArgument (.str "Subject name must be a non-empty string")
      (.str "subject") subject))
  | .ok scope =>
    match part with
    | .typed part => .ok { scope with part := part }
    | .json v =>
      match Part.ofJson? v with
      | some part => .ok { scope with part := part }
      | none =>
        .error (.fault (.invalidArgument
          (.str ("Schema type must be 'key' or 'value', got " ++ v.literal)) (.str "type") v))

/-- The positive integer that a value is or, as a run of digits, spells. -/
def positiveInt? : Json → Except Failure (Option Int)
  | .int n => .ok (if 0 < n then some n else none)
  | .str s =>
    let cs := s.toList
    if Text.digitsOnly cs then
      if Text.maxIntegerDigits < cs.length then
        .error (.breakdown (.badValue (Text.tooManyDigits cs.length)))
      else
        let n : Int := Text.value cs
        .ok (if 0 < n then some n else none)
    else .ok none
  | _ => .ok none

/-- The selector that a version given as an argument stands for. -/
def selectorOf (version : Json) : Except Failure Selector :=
  if version.isStr "latest" then .ok .latest
  else match positiveInt? version with
    | .error f => .error f
    | .ok (some n) => .ok (.number n)
    | .ok none =>
      .error (.fault (.invalidArgument
        (.str ("Version must be a positive integer or 'latest', got " ++ version.literal))
        (.str "version") version))

/-- The schema id that an argument stands for. -/
def idOf (id : Json) : Except Failure Int :=
  match positiveInt? id with
  | .error f => .error f
  | .ok (some n) => .ok n
  | .ok none =>
    .error (.fault (.invalidArgument
      (.str ("Schema id must be a positive integer, got " ++ id.literal)) (.str "schema_id") id))

/-- The canonical form of a schema given as an argument. -/
def canonicalOf (schema : Json) : Except Failure Schema.Canonical :=
  let refused : Except Failure Schema.Canonical :=
    .error (.fault (.invalidArgument
      (.str ("Schema must be text or a decoded JSON object, got " ++ schema.kindName))
      (.str "schema") schema))
  let attempt : Except Failure Schema.Canonical :=
    match Schema.canonicalize schema with
    | .ok c => .ok c
    | .error r => .error r.failure
  match schema with
  | .str _ => attempt
  | .arr _ => attempt
  | .obj _ => attempt
  | _ => refused

/-! ## Looking around -/

/-- The fault that a version points at no stored schema. -/
def danglingVersion (version : Version) : Fault :=
  let absent := Fault.message (.schemaIdNotFound version.schemaId)
  .internal
    (.str ("Version " ++ toString version.number ++ " of '" ++ version.scope.render ++
      "' references missing schema id " ++ version.schemaId.display))
    (some ("SchemaIdNotFoundError(" ++ absent.literal ++ ")"))

/-- The stored schema that a version points at. -/
def schemaOf (r : Registry) (version : Version) : Except Failure StoredSchema :=
  match r.schemas.lookUp version.schemaId with
  | .ok schema => .ok schema
  | .error (.fault _) => .error (.fault (danglingVersion version))
  | .error f => .error f

/-- The decoded canonical text of the schema that a version points at. -/
def formOf (r : Registry) (version : Version) : Except Failure Json :=
  match r.schemaOf version with
  | .error f => .error f
  | .ok schema => Schemas.formOf schema

/-- The decoded canonical texts of the schemas that versions point at. -/
def formsOf (r : Registry) : List Version → Except Failure (List Json)
  | [] => .ok []
  | version :: rest =>
    match r.formOf version with
    | .error f => .error f
    | .ok form =>
      match r.formsOf rest with
      | .error f => .error f
      | .ok forms => .ok (form :: forms)

/-- The live version of a scope that holds a schema with a fingerprint. -/
def live? (r : Registry) (scope : Scope) (fingerprint : String) : Option SchemaInfo := do
  let schema ← r.schemas.withFingerprint? (.str fingerprint)
  let version ← r.versions.holding? scope (.int schema.id)
  return ⟨scope, version.number, schema⟩

/-- The versions that a mode holds a new schema against: all live ones, or the latest. -/
def references (mode : Compatibility.Mode) (history : List Version) : List Version :=
  if mode.isTransitive then history else history.drop (history.length - 1)

/-- The violations of a schema against versions of the registry. -/
def violations (r : Registry) (candidate : Schema.Canonical) (against : List Version)
    (mode : Compatibility.Mode) : Except Failure (List Compatibility.Violation) :=
  match r.formsOf against with
  | .error f => .error f
  | .ok forms =>
    match Compatibility.checkCompatibility candidate.value forms mode with
    | .ok violations => .ok violations
    | .error b => .error (.breakdown b)

/-! ## Registering and checking -/

/-- Stores an admitted schema and appends a version of the scope that holds it. -/
def enroll (scope : Scope) (candidate : Schema.Canonical) : Step Registry Int := do
  let id ← onSchemas (Schemas.put (.str candidate.text) (.str candidate.raw)
    (.str candidate.fingerprint))
  try
    discard (onVersions (Versions.append scope (.int id)))
  catch
    | .fault (.alreadyExists _) => pure ()
    | f => throw f
  return id

/-- Registers a schema in a scope and gives its id. A schema that a live version holds already is
left as it is, whatever the mode. -/
def register (subject : Json) (part : Argument Part) (schema : Json) : Step Registry Int := do
  let scope ← settle (scopeOf subject part)
  let candidate ← settle (canonicalOf schema)
  let r ← get
  match r.live? scope candidate.fingerprint with
  | some info => return info.schema.id
  | none =>
    let mode := r.config.effective scope
    let found ← settle (r.violations candidate (references mode (r.versions.history scope)) mode)
    if !found.isEmpty then Step.refuse (.incompatible found mode (.str scope.render))
    enroll scope candidate

/-- The live version of a scope that holds a schema. -/
def check (subject : Json) (part : Argument Part) (schema : Json) : Step Registry SchemaInfo := do
  let scope ← settle (scopeOf subject part)
  let candidate ← settle (canonicalOf schema)
  let r ← get
  if (r.versions.history scope).isEmpty then Step.refuse (.subjectNotFound (.str scope.render))
  match r.live? scope candidate.fingerprint with
  | some info => return info
  | none => Step.refuse (.schemaNotFound (.str scope.render) (.str candidate.fingerprint))

/-- The versions that a test of a schema holds it against. -/
def testedAgainst (r : Registry) (scope : Scope) (selector : Selector)
    (mode : Compatibility.Mode) : Except Failure (List Version) :=
  match selector with
  | .latest =>
    match r.versions.history scope with
    | [] => .error (Versions.missing scope (.str "latest"))
    | history => .ok (references mode history)
  | .number n =>
    match r.versions.get scope (.number n) with
    | .ok version => .ok [version]
    | .error f => .error f

/-- Whether a schema is compatible with a version of a scope, or with those that the mode in effect
asks for. -/
def test (subject : Json) (part : Argument Part) (schema version : Json) :
    Step Registry Bool := do
  let scope ← settle (scopeOf subject part)
  let selector ← settle (selectorOf version)
  let candidate ← settle (canonicalOf schema)
  let r ← get
  let mode := r.config.effective scope
  let against ← settle (r.testedAgainst scope selector mode)
  let found ← settle (r.violations candidate against mode)
  return found.isEmpty

/-! ## Look-ups -/

/-- The written scopes with live versions, sorted. -/
def subjects : Step Registry (List String) := do
  return Json.sortTexts ((← get).versions.liveScopes.map Scope.render)

/-- The numbers of the live versions of a scope. -/
def versionNumbers (subject : Json) (part : Argument Part) : Step Registry (List Int) := do
  let scope ← settle (scopeOf subject part)
  settle ((← get).versions.liveNumbers scope)

/-- The schema with an id. -/
def schemaById (id : Json) : Step Registry StoredSchema := do
  let n ← settle (idOf id)
  settle ((← get).schemas.get n)

/-- A version of a scope with its schema. -/
def schemaAt (subject : Json) (part : Argument Part) (version : Json) :
    Step Registry SchemaInfo := do
  let scope ← settle (scopeOf subject part)
  let selector ← settle (selectorOf version)
  let r ← get
  let found ← settle (r.versions.get scope selector)
  let schema ← settle (r.schemaOf found)
  return ⟨scope, found.number, schema⟩

/-! ## Deleting -/

/-- Deletes a version of a scope and gives its number. -/
def deleteVersion (subject : Json) (part : Argument Part) (version : Json) :
    Step Registry Int := do
  let scope ← settle (scopeOf subject part)
  let selector ← settle (selectorOf version)
  onVersions (Versions.delete scope selector)

/-- Deletes all live versions of a scope and gives their numbers. -/
def deleteSubject (subject : Json) (part : Argument Part) : Step Registry (List Int) := do
  let scope ← settle (scopeOf subject part)
  onVersions (Versions.deleteAll scope)

/-! ## Modes -/

/-- The global mode. -/
def globalMode : Step Registry Compatibility.Mode := do
  return (← get).config.global

/-- Sets the global mode. -/
def setGlobalMode (mode : Argument Compatibility.Mode) : Step Registry Compatibility.Mode :=
  onConfig (Config.setGlobal mode)

/-- The mode in effect for a scope. -/
def modeOf (subject : Json) (part : Argument Part) : Step Registry Compatibility.Mode := do
  let scope ← settle (scopeOf subject part)
  return (← get).config.effective scope

/-- Sets the mode of a scope. -/
def setModeOf (subject : Json) (part : Argument Part) (mode : Argument Compatibility.Mode) :
    Step Registry Compatibility.Mode := do
  let scope ← settle (scopeOf subject part)
  onConfig (Config.setOverride scope mode)

/-- Removes the mode of a scope and gives the one now in effect. -/
def clearModeOf (subject : Json) (part : Argument Part) : Step Registry Compatibility.Mode := do
  let scope ← settle (scopeOf subject part)
  onConfig (Config.clearOverride scope)
  return (← get).config.effective scope

end Registry

/-! ## Operations as data -/

/-- An operation of a registry with its arguments. -/
inductive Operation where
  | register (subject : Json) (part : Argument Part) (schema : Json)
  | check (subject : Json) (part : Argument Part) (schema : Json)
  | test (subject : Json) (part : Argument Part) (schema version : Json)
  | subjects
  | versionNumbers (subject : Json) (part : Argument Part)
  | schemaById (id : Json)
  | schemaAt (subject : Json) (part : Argument Part) (version : Json)
  | deleteVersion (subject : Json) (part : Argument Part) (version : Json)
  | deleteSubject (subject : Json) (part : Argument Part)
  | globalMode
  | setGlobalMode (mode : Argument Compatibility.Mode)
  | modeOf (subject : Json) (part : Argument Part)
  | setModeOf (subject : Json) (part : Argument Part) (mode : Argument Compatibility.Mode)
  | clearModeOf (subject : Json) (part : Argument Part)

/-- The result of an operation. -/
inductive Result where
  | id (n : Int)
  | info (info : SchemaInfo)
  | compatible (b : Bool)
  | subjects (names : List String)
  | numbers (ns : List Int)
  | schema (s : StoredSchema)
  | number (n : Int)
  | mode (m : Compatibility.Mode)

/-- Carries out an operation. -/
def Registry.perform : Operation → Step Registry Result
  | .register subject part schema => do return .id (← register subject part schema)
  | .check subject part schema => do return .info (← check subject part schema)
  | .test subject part schema version => do return .compatible (← test subject part schema version)
  | .subjects => do return .subjects (← subjects)
  | .versionNumbers subject part => do return .numbers (← versionNumbers subject part)
  | .schemaById id => do return .schema (← schemaById id)
  | .schemaAt subject part version => do return .info (← schemaAt subject part version)
  | .deleteVersion subject part version => do return .number (← deleteVersion subject part version)
  | .deleteSubject subject part => do return .numbers (← deleteSubject subject part)
  | .globalMode => do return .mode (← globalMode)
  | .setGlobalMode mode => do return .mode (← setGlobalMode mode)
  | .modeOf subject part => do return .mode (← modeOf subject part)
  | .setModeOf subject part mode => do return .mode (← setModeOf subject part mode)
  | .clearModeOf subject part => do return .mode (← clearModeOf subject part)

end AvroRegistry
