import AvroRegistry.Json.Literal
import AvroRegistry.Text.Numeral

/-!
# Options and arguments

The options of the command line, and what a single argument is: a word, an option with or without a
value attached to it, something that looks like an option but is none, or the mark after which
everything is a word.

`Token.ofArgument` tells which. An option may be shortened as long as it stays clear which one is
meant, and a value may be attached to a long option behind an equals sign and to a short one
directly. A number below zero and an argument with a space in it are words.

Everything a user can get wrong is a `UsageError`.
-/

namespace AvroRegistry.CommandLine

/-! ## Options -/

/-- An option of the command line. -/
inductive Opt where
  | help
  | storage
  | subject
  | part
  | file
  | schema
  | version
  | id
  deriving DecidableEq, Repr

namespace Opt

/-- The spellings of an option. -/
def spellings : Opt → List String
  | help => ["-h", "--help"]
  | storage => ["--storage"]
  | subject => ["--subject", "-s"]
  | part => ["--type", "-t"]
  | file => ["--file", "-f"]
  | schema => ["--schema"]
  | version => ["--version", "-v"]
  | id => ["--id"]

/-- How messages call an option: by all its spellings. -/
def label (o : Opt) : String := "/".intercalate o.spellings

/-- The values an option takes; any value if there are none. -/
def choices : Opt → List String
  | part => ["key", "value"]
  | _ => []

/-- The option among some that has a spelling. -/
def spelled? (options : List Opt) (s : String) : Option Opt :=
  options.find? fun o => o.spellings.contains s

end Opt

/-! ## Errors of usage -/

/-- What is wrong with the arguments of a command line. -/
inductive UsageError where
  | ambiguous (argument : String) (candidates : List String)
  | valueMissing (label : String)
  | valueUnwanted (label value : String)
  | invalidChoice (label value : String) (choices : List String)
  | excluded (label other : String)
  | required (labels : List String)
  | oneRequired (labels : List String)
  | unrecognized (arguments : List String)
  | modeMissing
  | scopeMissing
  | scopeIncomplete
  | unreadableFile (path reason : String)
  deriving DecidableEq, Repr

/-- The message of an error of usage. -/
def UsageError.message : UsageError → String
  | ambiguous argument candidates =>
    "ambiguous option: " ++ argument ++ " could match " ++ ", ".intercalate candidates
  | valueMissing label => "argument " ++ label ++ ": expected one argument"
  | valueUnwanted label value =>
    "argument " ++ label ++ ": ignored explicit argument " ++ Json.literalText value
  | invalidChoice label value choices =>
    "argument " ++ label ++ ": invalid choice: " ++ Json.literalText value ++ " (choose from " ++
      ", ".intercalate (choices.map Json.literalText) ++ ")"
  | excluded label other => "argument " ++ label ++ ": not allowed with argument " ++ other
  | required labels => "the following arguments are required: " ++ ", ".intercalate labels
  | oneRequired labels => "one of the arguments " ++ " ".intercalate labels ++ " is required"
  | unrecognized arguments => "unrecognized arguments: " ++ " ".intercalate arguments
  | modeMissing => "config set requires a mode"
  | scopeMissing => "config delete requires --subject and --type"
  | scopeIncomplete => "--subject and --type must be given together"
  | unreadableFile path reason => "cannot read schema file '" ++ path ++ "': " ++ reason

/-! ## Arguments -/

/-- What an argument is. Every kind but the last keeps the argument itself. An option may have a
text attached to it. -/
inductive Token where
  | word (text : String)
  | marked (text : String) (option : Opt) (short : Bool) (attached : Option String)
  | stranger (text : String)
  | ender
  deriving DecidableEq, Repr

/-- The argument that a token was. -/
def Token.text : Token → String
  | word text => text
  | marked text .. => text
  | stranger text => text
  | ender => "--"

/-- Whether a text is a number below zero: a dash, digits, and possibly a point before the last of
them. A line feed may follow. -/
def isNegativeNumber (cs : List Char) : Bool :=
  let isDigit (c : Char) : Bool := (Text.plain c).isDigit
  match cs with
  | '-' :: rest =>
    let rest := if rest.getLast? = some '\n' then rest.dropLast else rest
    let whole := rest.takeWhile isDigit
    match rest.dropWhile isDigit with
    | [] => !whole.isEmpty
    | '.' :: fraction => !fraction.isEmpty && fraction.all isDigit
    | _ => false
  | _ => false

/-- The options among some that an argument with two dashes may be short for, each with the spelling
that it shortens. -/
def candidates (options : List Opt) (head : List Char) : List (String × Opt) :=
  options.flatMap fun o =>
    (o.spellings.filter fun s => head.isPrefixOf s.toList).map fun s => (s, o)

/-- What an argument is that begins with a dash and is no option as it stands. -/
def ofDashed (options : List Opt) (argument : String) : Except UsageError Token :=
  let cs := argument.toList
  let head := cs.takeWhile (· ≠ '=')
  let attached : Option String :=
    if cs.contains '=' then some (String.ofList ((cs.dropWhile (· ≠ '=')).drop 1)) else none
  let plainly : Token :=
    if isNegativeNumber cs || cs.contains ' ' then .word argument else .stranger argument
  match cs with
  | '-' :: '-' :: _ =>
    match candidates options head with
    | [] => .ok plainly
    | [(_, o)] => .ok (.marked argument o false attached)
    | several => .error (.ambiguous argument (several.map (·.1)))
  | '-' :: c :: rest =>
    match Opt.spelled? options (String.ofList ['-', c]) with
    | some o => .ok (.marked argument o true (some (String.ofList rest)))
    | none => .ok plainly
  | _ => .ok (.word argument)

/-- What an argument is, where some options are known. -/
def Token.ofArgument (options : List Opt) (argument : String) : Except UsageError Token :=
  let cs := argument.toList
  let head := cs.takeWhile (· ≠ '=')
  let isShort (cs : List Char) : Bool := cs.drop 1 |>.head? |>.any (· ≠ '-')
  match cs with
  | '-' :: _ =>
    match Opt.spelled? options argument with
    | some o => .ok (.marked argument o (isShort cs) none)
    | none =>
      match Opt.spelled? options (String.ofList head) with
      | some o =>
        .ok (.marked argument o (isShort cs)
          (some (String.ofList ((cs.dropWhile (· ≠ '=')).drop 1))))
      | none => ofDashed options argument
  | _ => .ok (.word argument)

/-- What arguments are. Behind two dashes alone everything is a word. -/
def Token.ofArguments (options : List Opt) : List String → Except UsageError (List Token)
  | [] => .ok []
  | argument :: rest =>
    if argument = "--" then .ok (.ender :: rest.map .word)
    else
      match Token.ofArgument options argument with
      | .error e => .error e
      | .ok token =>
        match Token.ofArguments options rest with
        | .error e => .error e
        | .ok tokens => .ok (token :: tokens)

end AvroRegistry.CommandLine
