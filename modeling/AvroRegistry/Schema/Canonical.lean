import AvroRegistry.Digest.Sha256
import AvroRegistry.Json.Decode
import AvroRegistry.Json.Encode
import AvroRegistry.Schema.Normalize

/-!
# Canonical text and fingerprint

`canonicalize` takes a schema as it was submitted, as text or as a value, and gives what a registry
stores and compares: the text as submitted, the canonical form, its canonical text, and the
fingerprint of that text. The fingerprint depends on the canonical text alone, so schemas that
differ only in spelling are one schema.
-/

namespace AvroRegistry.Schema

/-- The canonical text of a value: members sorted by key, no blanks. -/
def canonicalText (v : Json) : String := v.encode Json.compact

/-- The fingerprint of a text: the SHA-256 digest of its UTF-8 bytes. -/
def fingerprint (text : String) : String := "sha256:" ++ Sha256.hexDigest text.toUTF8.toList

/-- A schema brought into canonical form, with the text it was submitted as. -/
structure Canonical where
  form : Form
  raw : String

namespace Canonical

/-- The value of the canonical form. -/
def value (c : Canonical) : Json := c.form.toJson

/-- The canonical text. -/
def text (c : Canonical) : String := canonicalText c.value

/-- The fingerprint of the canonical text. -/
def fingerprint (c : Canonical) : String := Schema.fingerprint c.text

end Canonical

/-- The text and the value of a schema that was given as a value: it is written with blanks between
its parts, and what counts is what is read from that text. Only an integer of too many digits cannot
be written. -/
def rewritten (v : Json) : Except Refusal (String × Json) :=
  let raw := v.encode Json.spaced
  match Json.decode raw with
  | .ok v => .ok (raw, v)
  | .error _ => .error (.diagnosis .notWritable)

/-- The text and the value of a submitted schema: a text is decoded, a non-empty array or object is
written and read again, and nothing else is a schema. -/
def submitted (schema : Json) : Except Refusal (String × Json) :=
  match schema with
  | .str text =>
    if Text.isBlankText text then .error (.diagnosis .emptyText)
    else match Json.decode text with
      | .ok v => .ok (text, v)
      | .error (.notJson fault) => .error (.diagnosis (.notJson fault))
      | .error b => .error (.breakdown b)
  | .arr [] => .error (.diagnosis .emptyValue)
  | .obj [] => .error (.diagnosis .emptyValue)
  | .arr items => rewritten (.arr items)
  | .obj members => rewritten (.obj members)
  | v => .error (.diagnosis (.notASchema v.kindName))

/-- What a refusal of `accept` means for a submitted schema: a breakdown in the schema's own shape
makes it malformed, while a number out of range is nobody's fault but the arithmetic's. -/
def Refusal.ofAccept : Refusal → Refusal
  | .diagnosis d => .diagnosis d
  | .breakdown (.missingKey key) => .diagnosis (.malformed (.missingKey key))
  | .breakdown .wrongKind => .diagnosis (.malformed .wrongKind)
  | .breakdown .noAttribute => .diagnosis (.malformed .noAttribute)
  | .breakdown (.badValue text) => .diagnosis (.malformed (.badValue text))
  | .breakdown b => .breakdown b

/-- The canonical form of a submitted schema. -/
def canonicalize (schema : Json) : Except Refusal Canonical :=
  match submitted schema with
  | .error r => .error r
  | .ok (raw, v) =>
    match accept v with
    | .error r => .error r.ofAccept
    | .ok () =>
      match normalize v with
      | .error r => .error r
      | .ok form => .ok ⟨form, raw⟩

end AvroRegistry.Schema
