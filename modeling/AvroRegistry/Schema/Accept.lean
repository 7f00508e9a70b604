import AvroRegistry.Json.Access
import AvroRegistry.Schema.Diagnosis
import AvroRegistry.Schema.Vocabulary
import AvroRegistry.Text.Numeral

/-!
# Accepting a schema

`accept` decides whether a value is a schema of the language. It walks the value once, from left to
right, and stops at the first thing that is wrong: a type that does not exist, a named type without
a name or defined twice, a default that does not fit, a decimal that its size cannot hold.

Names are known from the place where they are defined on, so a reference must come after its
definition begins. Two sets of names are kept: the names *declared* in the definition at hand, which
may not be declared again, and the names *known*, which references look up. Each branch of a union
at the top starts with nothing declared but keeps what is known, so two branches may define one
name.

A value marked as already processed (`__fastavro_parsed`) together with a table of known names is
taken as it is.
-/

namespace AvroRegistry.Schema

/-- The names met so far. -/
structure Names where
  declared : List String := []
  known : List String := []

/-- A step of reading: it may add names and it may refuse. -/
abbrev Reading (α : Type) : Type := StateT Names (Except Refusal) α

/-- Ends the reading with a diagnosis. -/
def refuse {α : Type} (d : Diagnosis) : Reading α := fun _ => .error (.diagnosis d)

/-- Ends the reading with a breakdown. -/
def collapse {α : Type} (b : Breakdown) : Reading α := fun _ => .error (.breakdown b)

/-- Goes on only under a condition. -/
def require (condition : Bool) (d : Diagnosis) : Reading Unit :=
  if condition then pure () else refuse d

/-- A member that has to be there. -/
def member (key : String) (members : List (String × Json)) : Reading Json :=
  match Json.lookup key members with
  | some v => pure v
  | none => collapse (.missingKey key)

/-- Adds a name to the declared ones, where it must be new. -/
def declare (full : String) : Reading Unit := do
  let names ← get
  require (!names.declared.contains full) (.redefined full)
  set { names with declared := full :: names.declared }

/-- Adds a name to the known ones. -/
def learn (full : String) : Reading Unit :=
  modify fun names => { names with known := full :: names.known }

/-! ## Defaults -/

/-- Whether a value can be converted to a real number. -/
def isReal : Json → Except Breakdown Bool
  | .float _ => .ok true
  | .bool _ => .ok true
  | .int n => (Binary64.convert n).map fun _ => true
  | .str s => .ok (Text.isRealNumeral s)
  | _ => .ok false

/-- Whether a default fits a primitive type. A `strict` real default must be written as one. -/
def fitsPrimitive (strict : Bool) (name : String) (default : Json) : Except Breakdown Bool :=
  if name = "null" then .ok (match default with | .null => true | _ => false)
  else if name = "boolean" then .ok (match default with | .bool _ => true | _ => false)
  else if name = "string" ∨ name = "bytes" then
    .ok (match default with | .str _ => true | _ => false)
  else if name = "int" ∨ name = "long" then
    .ok (match default with | .int _ => true | .bool _ => true | _ => false)
  else if strict then .ok (match default with | .float _ => true | _ => false)
  else isReal default

/-- Whether a default fits a branch of a union: for anything but a primitive name it is not looked
at. -/
def fitsBranch (default : Json) : Json → Except Breakdown Bool
  | .str name => if isPrimitive name then fitsPrimitive false name default else .ok true
  | _ => .ok true

/-- Whether a default fits some branch; the branches are tried in order. -/
def fitsSome (default : Json) : List Json → Except Breakdown Bool
  | [] => .ok false
  | branch :: rest =>
    match fitsBranch default branch with
    | .error b => .error b
    | .ok true => .ok true
    | .ok false => fitsSome default rest

/-- Requires that a default, if there is one, fits; `type` is named in the diagnosis. -/
def requireDefault (default : Option Json) (type : Json) (fits : Json → Except Breakdown Bool) :
    Reading Unit :=
  match default with
  | none => pure ()
  | some d =>
    match fits d with
    | .error b => collapse b
    | .ok true => pure ()
    | .ok false => refuse (.defaultMismatch d type)

/-- Requires that a default, if there is one, fits some branch of a union. -/
def requireBranchDefault (default : Option Json) (branches : List Json) : Reading Unit :=
  match default with
  | none => pure ()
  | some d =>
    match fitsSome d branches with
    | .error b => collapse b
    | .ok true => pure ()
    | .ok false => refuse (.defaultMatchesNoBranch d (.arr branches))

/-- Whether a value is a text. -/
def isText (v : Json) : Except Breakdown Bool := .ok (match v with | .str _ => true | _ => false)

/-- Whether a value is an array. -/
def isArray (v : Json) : Except Breakdown Bool := .ok (match v with | .arr _ => true | _ => false)

/-- Whether a value is an object. -/
def isObject (v : Json) : Except Breakdown Bool := .ok (match v with | .obj _ => true | _ => false)

/-! ## Decimals -/

/-- The common logarithm of two, rounded. -/
def commonLogOfTwo : Binary64 := .finite false 5422874305198591 1020

/-- The largest whole number not above a number that must be finite. -/
def wholePart (x : Binary64) : Except Breakdown Int :=
  match x.floor? with
  | some n => .ok n
  | none =>
    match x with
    | .nan => .error (.badValue "cannot convert float NaN to integer")
    | _ => .error (.outOfRange "cannot convert float infinity to integer")

/-- How many decimal digits fit into a signed number of the given size in bytes. -/
def digitsThatFit (size : Json) : Except Breakdown Int :=
  match size.asInt?, size with
  | some n, _ => (Binary64.convert (8 * n - 1)).bind fun bits => wholePart (commonLogOfTwo.mul bits)
  | none, .float x => wholePart (commonLogOfTwo.mul ((Binary64.ofInt 8).mul x).pred)
  | none, _ => .error .wrongKind

/-- Requires that a precision fits into the size of a fixed type. -/
def requireFit (precision : Json) (digits : Int) (members : List (String × Json)) :
    Reading Unit := do
  let size ← member "size" members
  match digitsThatFit size with
  | .error b => collapse b
  | .ok most => require (decide (digits ≤ most)) (.precisionTooLarge precision size)

/-- Requires that the precision of a decimal, if it says anything, is positive and fits. -/
def checkPrecision (type precision : Json) (members : List (String × Json)) : Reading Unit :=
  if precision.truthy then
    match precision.asInt? with
    | none => refuse (.precisionNotPositive precision)
    | some digits => do
      require (decide (0 < digits)) (.precisionNotPositive precision)
      if type.isStr "fixed" then requireFit precision digits members
  else pure ()

/-- Requires that the scale of a decimal, if it says anything, is not negative. -/
def checkScale (scale : Json) : Reading Unit :=
  if scale.truthy then
    match scale.asInt? with
    | none => refuse (.scaleNotPositive scale)
    | some n => require (decide (0 ≤ n)) (.scaleNotPositive scale)
  else pure ()

/-- The rules for a type with the logical type `decimal`. -/
def checkDecimal (type : Json) (members : List (String × Json)) : Reading Unit :=
  match Json.lookup "logicalType" members with
  | some (.str "decimal") => do
    let scale := (Json.lookup "scale" members).getD .null
    let precision := (Json.lookup "precision" members).getD .null
    checkScale scale
    checkPrecision type precision members
    match scale.truthy && precision.truthy, scale.asInt?, precision.asInt? with
    | true, some s, some p => require (decide (s ≤ p)) (.scaleAbovePrecision precision)
    | _, _, _ => pure ()
  | _ => pure ()

/-! ## Named types -/

/-- A namespace: a text, which is empty where there is none, or any other value in its place. -/
inductive Space where
  | text (s : String)
  | other (v : Json)

/-- A namespace as it is shown in a full name. -/
def Space.display : Space → String
  | text s => s
  | other v => v.display

/-- The namespace around everything. -/
def Space.outermost : Space := .text ""

/-- The namespace that a named type is put in: its own, if it gives one, and else the one around
it. A namespace that says nothing is none. -/
def Space.within (space : Space) (members : List (String × Json)) : Space :=
  match Json.lookup "namespace" members with
  | none => space
  | some (.str s) => .text s
  | some v => if v.truthy then .other v else outermost

/-- The full name of a named type and the namespace its parts are in. What stands in place of a name
is looked at as far as looking for a dot in it works: an array or an object without one can still be
put behind a namespace, and is no name by itself. -/
def fullNameOf (space : Space) (members : List (String × Json)) : Reading (String × Space) :=
  match Json.lookup "name" members with
  | none => refuse (.nameRequired (.obj members))
  | some (.str name) =>
    if isDotted name then pure (name, .text (spaceOf name))
    else
      match space.within members with
      | .text "" => pure (name, .text "")
      | inner => pure (inner.display ++ "." ++ name, inner)
  | some name =>
    match Json.foundIn (.str ".") name with
    | .error b => collapse b
    | .ok true => collapse .noAttribute
    | .ok false =>
      match space.within members with
      | .text "" => collapse .wrongKind
      | inner => pure (inner.display ++ "." ++ name.display, inner)

/-- The full name that a reference means. Only a text can be put in front of it. -/
def referent (space : Space) (name : String) : Except Breakdown String :=
  match space with
  | .text s => .ok (qualify name s)
  | .other _ => if isDotted name then .ok name else .error .wrongKind

/-- Whether a character can begin a symbol. -/
def isSymbolStart (c : Char) : Bool := c.isAlpha || c = '_'

/-- Whether a value is a well-formed enum symbol. -/
def isSymbol : Json → Bool
  | .str s =>
    match s.toList with
    | c :: rest => isSymbolStart c && rest.all fun c => isSymbolStart c || c.isDigit
    | [] => false
  | _ => false

/-- The rules for the symbols of an enum. -/
def checkSymbols (members : List (String × Json)) : Reading Unit := do
  let symbols ← member "symbols" members
  match symbols.elements with
  | .error b => collapse b
  | .ok items =>
    require (items.all isSymbol) .badSymbol
    require (Json.allDistinct items) .repeatedSymbol
    match Json.lookup "default" members with
    | none => pure ()
    | some default =>
      match default.foundIn symbols with
      | .error b => collapse b
      | .ok found => require found .enumDefaultUnknown

/-- The rules for a record field apart from its type. -/
def checkField (members : List (String × Json)) : Reading Unit :=
  match Json.lookup "name" members with
  | none => refuse (.fieldWithoutName (.obj members))
  | some name =>
    match Json.lookup "type" members with
    | none => refuse (.fieldWithoutType name)
    | some _ =>
      match Json.lookup "aliases" members with
      | none => pure ()
      | some (.arr _) => pure ()
      | some aliases => refuse (.aliasesNotAList aliases)

/-! ## Types -/

/-- The rules for a type given by a single word or another value without parts. -/
def acceptWord (space : Space) (default : Option Json) : Json → Reading Unit
  | .str name =>
    if isPrimitive name then requireDefault default (.str name) (fitsPrimitive false name)
    else
      match referent space name with
      | .error b => collapse b
      | .ok full => do
        let names ← get
        require (names.known.contains full) (.unknownName full)
  | _ => collapse .wrongKind

/-- The rules for an object whose type is none of the constructors. -/
def acceptPrimitive (type : Json) (default : Option Json) (members : List (String × Json)) :
    Reading Unit :=
  match type with
  | .str name =>
    if isPrimitive name then requireDefault default type (fitsPrimitive true name)
    else refuse (.unknownType (.obj members))
  | type => if type.isKey then refuse (.unknownType (.obj members)) else collapse .wrongKind

mutual

/-- Accepts a type in a namespace, with the default of the field it stands in. -/
def acceptType (space : Space) (default : Option Json) : Json → Reading Unit
  | .arr branches => do
    acceptBranches space branches
    requireBranchDefault default branches
  | .obj members =>
    match Json.lookup "type" members with
    | none => collapse (.missingKey "type")
    | some type => do
      checkDecimal type members
      match type with
      | .str "array" =>
        acceptUnder "items" space none members
        requireDefault default type isArray
      | .str "map" =>
        acceptUnder "values" space none members
        requireDefault default type isObject
      | .str "enum" =>
        let (full, _) ← fullNameOf space members
        declare full
        checkSymbols members
        requireDefault default type isText
        learn full
      | .str "fixed" =>
        let (full, _) ← fullNameOf space members
        declare full
        requireDefault default type isText
        learn full
        discard (member "size" members)
      | .str "record" =>
        let (full, inner) ← fullNameOf space members
        declare full
        requireDefault default type isObject
        learn full
        acceptFieldsOf inner members
      | .str "error" =>
        let (full, inner) ← fullNameOf space members
        declare full
        requireDefault default type isObject
        learn full
        acceptFieldsOf inner members
      | type => acceptPrimitive type default members
  | word => acceptWord space default word

/-- Accepts the branches of a union, in order and without default. -/
def acceptBranches (space : Space) : List Json → Reading Unit
  | [] => pure ()
  | branch :: rest => do
    acceptType space none branch
    acceptBranches space rest

/-- Accepts the type under a key that has to be there. -/
def acceptUnder (key : String) (space : Space) (default : Option Json) :
    List (String × Json) → Reading Unit
  | [] => collapse (.missingKey key)
  | (k, v) :: rest =>
    if k = key then acceptType space default v else acceptUnder key space default rest

/-- Accepts the fields of a record, given its members; a record without the member has none. -/
def acceptFieldsOf (space : Space) : List (String × Json) → Reading Unit
  | [] => pure ()
  | (k, v) :: rest =>
    if k = "fields" then
      match v with
      | .arr fields => acceptFields space fields
      | v =>
        match v.elements with
        | .error b => collapse b
        | .ok [] => pure ()
        | .ok (first :: _) => refuse (.fieldNotAnObject first)
    else acceptFieldsOf space rest

/-- Accepts the fields of a record in order. -/
def acceptFields (space : Space) : List Json → Reading Unit
  | [] => pure ()
  | .obj members :: rest => do
    checkField members
    acceptUnder "type" space (Json.lookup "default" members) members
    acceptFields space rest
  | field :: _ => refuse (.fieldNotAnObject field)

end

/-! ## Whole schemas -/

/-- The key that marks a value as already processed. -/
def processedMark : String := "__fastavro_parsed"

/-- The key under which an already processed value carries its known names. -/
def namesMark : String := "__named_schemas"

/-- Accepts a definition on its own, with nothing declared yet. -/
def acceptDefinition (v : Json) : Reading Unit := do
  modify fun names => { names with declared := [] }
  acceptType .outermost none v

mutual

/-- Accepts a value at the top: an array is a union whose branches are accepted one by one. -/
def acceptTop : Json → Reading Unit
  | .arr branches => acceptEach branches
  | .obj members =>
    match Json.lookup processedMark members, Json.lookup namesMark members with
    | some _, some (.obj names) => modify fun n => { n with known := Json.keys names ++ n.known }
    | some _, some _ => collapse .noAttribute
    | _, _ => acceptDefinition (.obj members)
  | word => acceptDefinition word

/-- Accepts the branches of a union at the top. -/
def acceptEach : List Json → Reading Unit
  | [] => pure ()
  | branch :: rest => do
    acceptTop branch
    acceptEach rest

end

/-- Whether a value is a schema; if not, why. -/
def accept (v : Json) : Except Refusal Unit := (acceptTop v).run' {}

end AvroRegistry.Schema
