import AvroRegistry.CommandLine.Grammar
import AvroRegistry.Registry

/-!
# Commands

What a command line asks for: a `Command` with its arguments, and the file of the registry if one is
named. An argument is a text, or a list of none where a command line says that no words follow.
`Invocation.ofArguments` reads a command line in two stages, since what may stand behind a
command depends on the command; arguments that belong to nothing are reported last.

`Command.operation` is the operation of a registry that a command stands for.
-/

namespace AvroRegistry.CommandLine

/-! ## Commands -/

/-- Where the text of a schema comes from. -/
inductive Source where
  | text (schema : Json)
  | file (path : Json)
  deriving DecidableEq

/-- What to do with a compatibility mode. -/
inductive ConfigAction where
  | get
  | set
  | delete
  deriving DecidableEq, Repr

/-- The subject and the part of its messages, as they were given. -/
structure Target where
  subject : Json
  part : Json
  deriving DecidableEq

/-- A command with its arguments as they were given. -/
inductive Command where
  | register (target : Target) (source : Source)
  | check (target : Target) (source : Source)
  | test (target : Target) (source : Source) (version : Json)
  | subjects
  | versions (target : Target)
  | get (target : Target) (version : Json)
  | getId (id : Json)
  | deleteVersion (target : Target) (version : Json)
  | deleteSubject (target : Target)
  | config (action : ConfigAction) (mode : Option String) (subject part : Option Json)
  deriving DecidableEq

/-- What a command line asks for. -/
structure Invocation where
  storage : Option Json
  command : Command
  deriving DecidableEq

/-! ## Names and grammars -/

/-- The name of a command. -/
inductive Verb where
  | register
  | check
  | test
  | subjects
  | versions
  | get
  | getId
  | deleteVersion
  | deleteSubject
  | config
  deriving DecidableEq, Repr

namespace Verb

/-- All names, in the order in which they are listed. -/
def all : List Verb :=
  [register, check, test, subjects, versions, get, getId, deleteVersion, deleteSubject, config]

/-- The spelling of a name. -/
def name : Verb → String
  | register => "register"
  | check => "check"
  | test => "test"
  | subjects => "subjects"
  | versions => "versions"
  | get => "get"
  | getId => "get-id"
  | deleteVersion => "delete-version"
  | deleteSubject => "delete-subject"
  | config => "config"

/-- The grammar of a command on a subject, which may have further options. -/
def onSubject (alternatives options required : List Opt) : Grammar where
  options := [.help, .subject, .part] ++ alternatives ++ options
  required := [.subject, .part] ++ required
  alternatives := alternatives

/-- The options for the text of a schema. -/
def sources : List Opt := [.file, .schema]

/-- What may stand behind the name of a command. -/
def grammar : Verb → Grammar
  | register => onSubject sources [] []
  | check => onSubject sources [] []
  | test => onSubject sources [.version] []
  | subjects => { options := [.help] }
  | versions => onSubject [] [] []
  | get => onSubject [] [.version] []
  | getId => { options := [.help, .id], required := [.id] }
  | deleteVersion => onSubject [] [.version] [.version]
  | deleteSubject => onSubject [] [] []
  | config =>
    { options := [.help, .subject, .part],
      words := [⟨"action", .required, ["get", "set", "delete"]⟩, ⟨"mode", .optional, []⟩] }

end Verb

/-- What may stand on a command line before the name of the command. -/
def outerGrammar : Grammar where
  options := [.help, .storage]
  words := [⟨"command", .leading, []⟩]

/-! ## From readings to commands -/

namespace Reading

/-- The value of an option that is there. -/
def value (r : Reading) (o : Opt) : Json := (r.value? o).getD .null

/-- The subject and the part that were given. -/
def target (r : Reading) : Target := ⟨r.value .subject, r.value .part⟩

/-- The source of the schema that was given. -/
def source (r : Reading) : Source :=
  match r.value? .schema with
  | some schema => .text schema
  | none => .file (r.value .file)

/-- The version that was given, or the latest. -/
def version (r : Reading) : Json := (r.value? .version).getD (.str "latest")

/-- The action on a mode that was given. -/
def action (r : Reading) : ConfigAction :=
  if r.word? "action" = some "get" then .get
  else if r.word? "action" = some "set" then .set
  else .delete

end Reading

/-- The command of a name and what was read behind it. -/
def Verb.command (r : Reading) : Verb → Command
  | register => .register r.target r.source
  | check => .check r.target r.source
  | test => .test r.target r.source r.version
  | subjects => .subjects
  | versions => .versions r.target
  | get => .get r.target r.version
  | getId => .getId (r.value .id)
  | deleteVersion => .deleteVersion r.target r.version
  | deleteSubject => .deleteSubject r.target
  | config => .config r.action (r.word? "mode") (r.value? .subject) (r.value? .part)

/-- Whether an argument was given and is not empty. -/
def isFilled (argument : Option Json) : Bool := argument.any Json.truthy

/-- What is wrong with a command beyond its grammar: setting a mode needs one, removing a scope's
mode needs the scope, and a scope needs both its halves. -/
def Command.usageError? : Command → Option UsageError
  | .config action mode subject part =>
    if action = .set && !isFilled (mode.map .str) then some .modeMissing
    else if action = .delete && !(isFilled subject && isFilled part) then some .scopeMissing
    else if isFilled subject != isFilled part then some .scopeIncomplete
    else none
  | _ => none

/-- Reads a command line. -/
def Invocation.ofArguments (arguments : List String) : Except Stop Invocation := do
  let outer ← outerGrammar.read arguments
  let name := (outer.word? "command").getD ""
  match Verb.all.find? fun v => v.name == name with
  | none => stop (.invalidChoice "command" name (Verb.all.map Verb.name))
  | some verb =>
    let inner ← verb.grammar.read outer.behind
    let leftOver := outer.leftOver ++ inner.leftOver
    if !leftOver.isEmpty then stop (.unrecognized leftOver)
    let command := verb.command inner
    match command.usageError? with
    | some e => stop e
    | none => return ⟨outer.value? .storage, command⟩

/-! ## From commands to operations -/

/-- Where the schema of a command comes from, if it has one. -/
def Command.source? : Command → Option Source
  | .register _ source => some source
  | .check _ source => some source
  | .test _ source _ => some source
  | _ => none

/-- The part of messages that was given, as an argument of an operation. -/
def Target.argument (t : Target) : Argument Part := .json t.part

/-- The operation that reads or changes a mode: that of a scope as soon as a subject or a part is
given, and the global one otherwise. -/
def configOperation (action : ConfigAction) (mode : Option String) (subject part : Option Json) :
    Operation :=
  let subjectValue := subject.getD .null
  let partValue : Argument Part := .json (part.getD .null)
  let modeValue : Argument Compatibility.Mode := .json (Json.ofText? mode)
  let isScoped := subject.isSome || part.isSome
  match action with
  | .get => if isScoped then .modeOf subjectValue partValue else .globalMode
  | .set =>
    if isScoped then .setModeOf subjectValue partValue modeValue else .setGlobalMode modeValue
  | .delete => .clearModeOf subjectValue partValue

/-- The operation that a command stands for, given the schema that its source holds. -/
def Command.operation (schema : Json) : Command → Operation
  | .register t _ => .register t.subject t.argument schema
  | .check t _ => .check t.subject t.argument schema
  | .test t _ version => .test t.subject t.argument schema version
  | .subjects => .subjects
  | .versions t => .versionNumbers t.subject t.argument
  | .get t version => .schemaAt t.subject t.argument version
  | .getId id => .schemaById id
  | .deleteVersion t version => .deleteVersion t.subject t.argument version
  | .deleteSubject t => .deleteSubject t.subject t.argument
  | .config action mode subject part => configOperation action mode subject part

end AvroRegistry.CommandLine
