import AvroRegistry.Breakdown
import AvroRegistry.Json.Literal
import AvroRegistry.Text.Numeral

/-!
# What can be wrong with a schema

One constructor for each reason to refuse a schema, holding what its message needs. The messages
are in `Diagnosis.message`; everything else compares reasons, not texts.

`Refusal` is what reading a schema can end in: a diagnosis, or a breakdown that no rule accounts
for and that therefore passes to the caller as it is.
-/

namespace AvroRegistry

/-- The word by which messages call a breakdown. -/
def Breakdown.name : Breakdown → String
  | .missingKey _ => "KeyError"
  | .wrongKind => "TypeError"
  | .noAttribute => "AttributeError"
  | .badValue _ => "ValueError"
  | .outOfRange _ => "OverflowError"
  | .notJson _ => "JSONDecodeError"
  | .notText _ => "UnicodeDecodeError"
  | .fileRefused kind _ => kind
  | .exhausted => "RecursionError"

/-- What a breakdown says, if it says anything. -/
def Breakdown.text? : Breakdown → Option String
  | .missingKey key => some (Json.literalText key)
  | .badValue text => some text
  | .outOfRange text => some text
  | .notJson text => some text
  | .notText text => some text
  | .fileRefused _ text => some text
  | .wrongKind => none
  | .noAttribute => none
  | .exhausted => none

/-- A breakdown quoted as the cause of something else. -/
def Breakdown.quoted (b : Breakdown) : String :=
  match b with
  | .missingKey key => b.name ++ "(" ++ Json.literalText key ++ ")"
  | b =>
    match b.text? with
    | some text => b.name ++ "(" ++ Json.literalText text ++ ")"
    | none => b.name

namespace Schema

/-- A reason to refuse a schema. -/
inductive Diagnosis where
  -- Texts and values that are no schema at all.
  | emptyText
  | notJson (fault : String)
  | emptyValue
  | notASchema (kind : String)
  | notWritable
  | malformed (cause : Breakdown)
  -- Refused by the rules of the language.
  | scaleNotPositive (scale : Json)
  | precisionNotPositive (precision : Json)
  | precisionTooLarge (precision size : Json)
  | scaleAbovePrecision (precision : Json)
  | nameRequired (schema : Json)
  | redefined (full : String)
  | badSymbol
  | repeatedSymbol
  | enumDefaultUnknown
  | fieldNotAnObject (field : Json)
  | fieldWithoutName (field : Json)
  | fieldWithoutType (name : Json)
  | aliasesNotAList (aliases : Json)
  | defaultMismatch (default : Json) (type : Json)
  | defaultMatchesNoBranch (default : Json) (union : Json)
  | unknownName (name : String)
  | unknownType (schema : Json)
  -- Refused when brought into canonical form.
  | emptyUnion
  | unexpectedElement (element : Json)
  | typeRequired (schema : Json)
  | unnamed (kind : Json)
  | noFields (full : String)
  | repeatedField (full : String) (name : Json)
  | repeatedSymbols (full : String)
  | unresolved (name : String)

/-- The message of a diagnosis. -/
def Diagnosis.message : Diagnosis → String
  | .emptyText => "Schema text is empty"
  | .notJson fault => "Schema is not valid JSON: " ++ fault
  | .emptyValue => "Schema is empty"
  | .notASchema kind => "Schema must be JSON text or a decoded JSON object, got " ++ kind
  | .notWritable => "Schema is not JSON-serializable: " ++ Text.tooManyDigitsToWrite
  | .malformed cause => "Malformed Avro schema: " ++ cause.quoted
  | .scaleNotPositive scale => "decimal scale must be a positive integer, not " ++ scale.display
  | .precisionNotPositive precision =>
    "decimal precision must be a positive integer, not " ++ precision.display
  | .precisionTooLarge precision size =>
    "decimal precision of " ++ precision.display ++ " doesn't fit into array of length " ++
      size.display
  | .scaleAbovePrecision precision =>
    "decimal scale must be less than or equal to the precision of " ++ precision.display
  | .nameRequired schema =>
    "\"name\" is a required field missing from the schema: " ++ schema.literal
  | .redefined full => "redefined named type: " ++ full
  | .badSymbol => "Every symbol must match the regular expression [A-Za-z_][A-Za-z0-9_]*"
  | .repeatedSymbol => "All symbols in an enum must be unique"
  | .enumDefaultUnknown => "Default value for enum must be in symbols list"
  | .fieldNotAnObject field =>
    "Record field must be a dict, not " ++ field.kindName ++ ": " ++ field.display
  | .fieldWithoutName field => "Record field is missing 'name': " ++ field.display
  | .fieldWithoutType name => "Record field '" ++ name.display ++ "' is missing 'type'"
  | .aliasesNotAList aliases => "aliases must be a list, not " ++ aliases.display
  | .defaultMismatch default type =>
    "Default value <" ++ default.display ++ "> must match schema type: " ++ type.display
  | .defaultMatchesNoBranch default union =>
    "Default value <" ++ default.display ++ "> must match a schema in union with type: " ++
      union.literal
  | .unknownName name => name
  | .unknownType schema => schema.literal
  | .emptyUnion => "Union has no branches"
  | .unexpectedElement element => "Unexpected schema element " ++ element.literal
  | .typeRequired schema => "Schema object is missing 'type': " ++ schema.literal
  | .unnamed kind => "Named type '" ++ kind.display ++ "' is missing a name"
  | .noFields full => "Record '" ++ full ++ "' has no fields"
  | .repeatedField full name =>
    "Record '" ++ full ++ "' has duplicate field '" ++ name.display ++ "'"
  | .repeatedSymbols full => "Enum '" ++ full ++ "' has duplicate symbols"
  | .unresolved name => "Unknown type '" ++ name ++ "'"

/-- How reading a schema can fail. -/
inductive Refusal where
  | diagnosis (d : Diagnosis)
  | breakdown (b : Breakdown)

end Schema

end AvroRegistry
