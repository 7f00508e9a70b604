import AvroRegistry.CommandLine.Command
import AvroRegistry.Disk.Registry
import AvroRegistry.Logging

/-!
# Sessions

One call of the command line, from its arguments to what it prints and how it exits.
`CommandLine.run` reads the arguments, the schema file if one is named, and the settings; it opens
the registry, carries out the operation that the command stands for, and gives the `Outcome`
together with the disk as it is afterwards. A sequence of calls is a sequence of runs on one disk.
-/

namespace AvroRegistry

/-- A result as an object or a list for programs. -/
def Result.report : Result → Json
  | .id n => .obj [("id", .int n)]
  | .info found => found.toJson
  | .compatible b => .obj [("is_compatible", .bool b)]
  | .subjects names => .arr (names.map .str)
  | .numbers ns => .arr (ns.map .int)
  | .schema s => s.toJson
  | .number n => .int n
  | .mode m => .obj [("compatibility", .str m.name)]

/-- Opens the registry that settings describe and carries out one operation. -/
def Registry.serve (settings : Settings) (operation : Operation) : Step Disk Result := do
  let r ← Registry.openOn settings
  fun d =>
    let (outcome, _, d) := (Step.onDisk (Registry.perform operation)).outcome (r, d)
    (outcome, d)

namespace CommandLine

/-- How a call of the command line ends. -/
inductive Outcome where
  | finished (result : Result)
  | refused (f : Fault)
  | help
  | usage (e : UsageError)
  | badSettings (issues : List Settings.Issue)
  | collapsed (b : Breakdown)

namespace Outcome

/-- The exit status: zero if all went well, one if the registry refused or found a schema
incompatible, two for errors of usage. -/
def status : Outcome → Nat
  | finished (.compatible false) => 1
  | finished _ => 0
  | refused _ => 1
  | help => 0
  | usage _ => 2
  | badSettings _ => 1
  | collapsed _ => 1

/-- How to call the command line, in short. -/
def helpText : String :=
  "usage: schemahub [-h] [--storage STORAGE] \x7b" ++ ",".intercalate (Verb.all.map Verb.name) ++
    "\x7d ...\n"

/-- What is written to the output. -/
def output : Outcome → String
  | finished result => result.report.encode Json.indented ++ "\n"
  | help => helpText
  | _ => ""

end Outcome

/-- The schema of a command as an argument of its operation. A file without a name holds none. -/
def schemaOf (disk : Disk) : Option Source → Except Outcome Json
  | none => .ok .null
  | some (.text schema) => .ok schema
  | some (.file name) =>
    if !name.truthy then .ok .null
    else
      match disk.read (Path.ofText name.display) with
      | .ok schema => .ok (.str schema)
      | .error (.obstacle o) => .error (.usage (.unreadableFile name.display o.reason))
      | .error (.breakdown b) => .error (.collapsed b)

/-- The settings of a call: the file named on the command line, and the environment. -/
def settingsOf (environment : List (String × String)) (storage : Option Json) :
    Except Outcome Settings :=
  let values := (storage.filter Json.truthy).toList.map fun path => ("storage_path", path)
  match Settings.read ⟨values, environment⟩ with
  | .error issues => .error (.badSettings issues)
  | .ok settings =>
    match Logging.ofSettings settings with
    | .error b => .error (.collapsed b)
    | .ok _ => .ok settings

/-- How the outcome of an operation ends a call. -/
def ending : Except Failure Result → Outcome
  | .ok result => .finished result
  | .error (.fault f) => .refused f
  | .error (.breakdown b) => .collapsed b

/-- One call of the command line. -/
def run (environment : List (String × String)) (arguments : List String) (disk : Disk) :
    Outcome × Disk :=
  match Invocation.ofArguments arguments with
  | .error .help => (.help, disk)
  | .error (.usage e) => (.usage e, disk)
  | .ok invocation =>
    match schemaOf disk invocation.command.source? with
    | .error outcome => (outcome, disk)
    | .ok schema =>
      match settingsOf environment invocation.storage with
      | .error outcome => (outcome, disk)
      | .ok settings =>
        let operation := invocation.command.operation schema
        let (outcome, disk) := (Registry.serve settings operation).outcome disk
        (ending outcome, disk)

end CommandLine

end AvroRegistry
