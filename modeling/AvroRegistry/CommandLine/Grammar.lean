import AvroRegistry.CommandLine.Options

/-!
# Grammars of command lines

A `Grammar` says what may stand on a command line: options, which of them must be there, options of
which exactly one must be there, and words in their order. `Grammar.read` goes through the arguments
once, from the left, and gives a `Reading`: the values of the options, the words, and what was left
over. The first error met ends it; whether anything is missing is looked at only when all arguments
have been read, and asking for help ends it at once.

Words that follow one another are read together: once the first word is there, the next one has to
follow at once or is taken to be absent.
-/

namespace AvroRegistry.CommandLine

/-! ## Grammars -/

/-- How a word takes part in a command line. -/
inductive WordKind where
  /-- It has to be there. -/
  | required
  /-- It may be there. -/
  | optional
  /-- It has to be there, and everything behind it belongs to it. -/
  | leading
  deriving DecidableEq, Repr

/-- A word of a command line, and the values it takes; any value if there are none. -/
structure Word where
  name : String
  kind : WordKind
  choices : List String := []
  deriving DecidableEq, Repr

/-- What may stand on a command line. -/
structure Grammar where
  options : List Opt
  required : List Opt := []
  alternatives : List Opt := []
  words : List Word := []
  deriving DecidableEq, Repr

/-- Why reading a command line ended early. -/
inductive Stop where
  | help
  | usage (e : UsageError)
  deriving DecidableEq, Repr

/-- What has been read of a command line. The value given last for an option stands first. -/
structure Reading where
  values : List (Opt × Json) := []
  words : List (String × String) := []
  behind : List String := []
  leftOver : List String := []
  pending : List Word := []
  begun : Bool := false
  deriving DecidableEq

namespace Reading

/-- The value of an option, if it was given. -/
def value? (r : Reading) (o : Opt) : Option Json := r.values.lookup o

/-- A word, if it was given. -/
def word? (r : Reading) (name : String) : Option String := r.words.lookup name

/-- Whether an option was given. -/
def gives (r : Reading) (o : Opt) : Bool := (r.value? o).isSome

/-- The reading with an argument that belongs to nothing. -/
def leave (r : Reading) (argument : String) : Reading :=
  { r with leftOver := r.leftOver ++ [argument] }

/-- The reading when something other than a word follows: words that did not follow are absent. -/
def interrupted (r : Reading) : Reading :=
  if r.begun then { r with pending := [], begun := false } else r

end Reading

/-! ## Reading -/

/-- Ends reading with an error of usage. -/
def stop {α : Type} (e : UsageError) : Except Stop α := .error (.usage e)

/-- Requires that a value is one of the choices, if there are any. -/
def requireChoice (label : String) (choices : List String) (value : String) : Except Stop Unit :=
  if choices.isEmpty || choices.contains value then .ok ()
  else stop (.invalidChoice label value choices)

/-- The value of an option that a text gives: the text itself, which has to be one of the choices.
Two dashes alone say that no words follow, so that the value is a list of none. -/
def valueOf (o : Opt) (text : String) : Except Stop Json :=
  if text = "--" then .ok (.arr [])
  else (requireChoice o.label o.choices text).map fun _ => .str text

/-- Notes the value of an option. -/
def give (g : Grammar) (o : Opt) (text : String) (r : Reading) : Except Stop Reading := do
  let value ← valueOf o text
  if g.alternatives.contains o then
    match g.alternatives.find? fun other => other ≠ o && r.gives other with
    | some other => stop (.excluded o.label other.label)
    | none => pure ()
  return { r with values := (o, value) :: r.values }

/-- Notes a word; two dashes alone are no value for a word that may be absent. -/
def takeWord (w : Word) (text : String) (r : Reading) : Except Stop Reading := do
  if w.kind = .optional && text = "--" then return r
  requireChoice w.name w.choices text
  return { r with words := (w.name, text) :: r.words }

/-- How short options written in one argument behind the one for help end reading. Each is looked
up before any takes effect; one that takes a value has it in what is left of the argument, or in the
word that follows. -/
def helpAmong (options : List Opt) (next : List Token) : List Char → Stop
  | [] => .help
  | c :: rest =>
    match Opt.spelled? options (String.ofList ['-', c]) with
    | none => .usage (.valueUnwanted Opt.help.label (String.ofList (c :: rest)))
    | some .help => helpAmong options next rest
    | some o =>
      match rest, next with
      | [], .word _ :: _ => .help
      | [], _ => .usage (.valueMissing o.label)
      | _, _ => .help

/-- How a request for help ends reading. -/
def helpStop (options : List Opt) (short : Bool) (attached : Option String) (next : List Token) :
    Stop :=
  match attached with
  | none => .help
  | some text =>
    if short && text ≠ "" then helpAmong options next text.toList
    else .usage (.valueUnwanted Opt.help.label text)

/-- Reads tokens from the left. -/
def readTokens (g : Grammar) : List Token → Reading → Except Stop Reading
  | [], r => .ok r
  | .word text :: rest, r =>
    match r.pending with
    | [] => readTokens g rest { r.leave text with begun := false }
    | w :: pending =>
      match takeWord w text { r with pending := pending, begun := true } with
      | .error s => .error s
      | .ok r =>
        if w.kind = .leading then .ok { r with behind := rest.map Token.text }
        else readTokens g rest r
  | .ender :: rest, r =>
    if r.begun then readTokens g rest r
    else
      match r.pending, rest with
      | w :: _, next :: more =>
        if w.kind = .leading then
          .ok { r with words := (w.name, "--") :: r.words, behind := (next :: more).map Token.text }
        else readTokens g (next :: more) r
      | _, rest => readTokens g rest (r.leave "--")
  | .stranger text :: rest, r => readTokens g rest (r.interrupted.leave text)
  | .marked _ option short attached :: rest, r =>
    if option = .help then .error (helpStop g.options short attached rest)
    else
      match attached, rest with
      | some text, rest =>
        match give g option text r.interrupted with
        | .error s => .error s
        | .ok r => readTokens g rest r
      | none, .word text :: rest =>
        match give g option text r.interrupted with
        | .error s => .error s
        | .ok r => readTokens g rest r
      | none, _ => stop (.valueMissing option.label)

/-- The names of what has to be there and is not, words first. -/
def Grammar.missing (g : Grammar) (r : Reading) : List String :=
  ((g.words.filter fun w => w.kind ≠ .optional && (r.word? w.name).isNone).map (·.name)) ++
    ((g.required.filter fun o => !r.gives o).map Opt.label)

/-- Requires that nothing is missing. -/
def Grammar.complete (g : Grammar) (r : Reading) : Except Stop Reading :=
  match g.missing r with
  | [] =>
    if g.alternatives.isEmpty || g.alternatives.any r.gives then .ok r
    else stop (.oneRequired (g.alternatives.map Opt.label))
  | labels => stop (.required labels)

/-- Reads arguments. -/
def Grammar.read (g : Grammar) (arguments : List String) : Except Stop Reading :=
  match Token.ofArguments g.options arguments with
  | .error e => stop e
  | .ok tokens =>
    match readTokens g tokens { pending := g.words } with
    | .error s => .error s
    | .ok r => g.complete r

end AvroRegistry.CommandLine
