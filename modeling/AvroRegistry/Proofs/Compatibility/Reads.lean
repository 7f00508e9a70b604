import AvroRegistry.Compatibility.Resolution
import AvroRegistry.Proofs.Json.Values
import AvroRegistry.Proofs.Schema.Normalized

/-!
# When data of one schema can be read with another

The rules of schema resolution as a relation between the types of a reader and of a writer, apart
from any way of checking it. `ReadsStep` says what has to hold of two types, given what is held
possible for their parts. Types may refer back to themselves, so `Reads` is the greatest relation
that agrees with these rules: a pair is in it if some relation that holds of the pair demands no
more, at each of its pairs, than what it holds of itself.
-/

namespace AvroRegistry.Compatibility

open Schema (Form FieldHead)

/-! ## Names and fields -/

/-- A named type of the reader can stand for one of the writer: the unqualified names are equal, or
an alias of the reader is the writer's name, in full or unqualified. -/
def NamesAgree (reader : String) (aliases : List Json) (writer : String) : Prop :=
  Schema.unqualified reader = Schema.unqualified writer ∨ Json.str writer ∈ aliases ∨
    ∃ a, Json.str a ∈ aliases ∧ Schema.unqualified a = Schema.unqualified writer

/-- The field of a record under a name. -/
def fieldNamed (fields : List (FieldHead × Form)) (name : Json) : Option (FieldHead × Form) :=
  fields.find? fun f => f.1.name.same name

/-- The field of the writer that a field of the reader reads: the one of its name, otherwise the
one of its first alias that is a field of the writer. -/
def counterpart? (fields : List (FieldHead × Form)) (head : FieldHead) :
    Option (FieldHead × Form) :=
  (fieldNamed fields head.name).or (head.aliases.findSome? (fieldNamed fields))

/-- The fields of the reader read those of the writer: a field with a counterpart reads its type,
one without has a default, and a field of the writer that is no counterpart has one too. -/
structure FieldsRead (reads : Form → Form → Prop) (reader writer : List (FieldHead × Form)) :
    Prop where
  found : ∀ f ∈ reader, ∀ g, counterpart? writer f.1 = some g → reads f.2 g.2
  missing : ∀ f ∈ reader, counterpart? writer f.1 = none → f.1.default.isSome = true
  removed : ∀ g ∈ writer, (∃ f ∈ reader, counterpart? writer f.1 = some g) ∨
    g.1.default.isSome = true

/-! ## Types -/

/-- The primitive type that a type is, with or without attributes. -/
def primitive? : Form → Option String
  | .name n => some n
  | .annotated p _ => some p
  | _ => none

/-- The rules for two types of which neither is a union, given what holds of their parts. -/
inductive Matches (reads : Form → Form → Prop) : Form → Form → Prop where
  | primitive {r w : Form} {p : String} (known : Schema.isPrimitive p = true)
      (reader : primitive? r = some p) (writer : primitive? w = some p) : Matches reads r w
  | promotion {r w : Form} {p q : String} (reader : primitive? r = some p)
      (writer : primitive? w = some q) (promoted : (q, p) ∈ promotions) : Matches reads r w
  | array {r w : Form} (items : reads r w) : Matches reads (.array r) (.array w)
  | map {r w : Form} (values : reads r w) : Matches reads (.map r) (.map w)
  | fixed {n m : String} {aliases aliases' : List Json} {size size' : Json}
      {attributes attributes' : List (String × Json)} (names : NamesAgree n aliases m)
      (sizes : size.equal size' = true) :
      Matches reads (.fixed n aliases size attributes) (.fixed m aliases' size' attributes')
  | enumeration {n m : String} {aliases aliases' symbols symbols' : List Json}
      {default default' : Option Json} (names : NamesAgree n aliases m)
      (known : (∀ s ∈ symbols', s.isIn symbols = true) ∨ default.isSome = true) :
      Matches reads (.enumeration n aliases symbols default)
        (.enumeration m aliases' symbols' default')
  | record {isError isError' : Bool} {n m : String} {aliases aliases' : List Json}
      {fields fields' : List (FieldHead × Form)} (names : NamesAgree n aliases m)
      (read : FieldsRead reads fields fields') :
      Matches reads (.record isError n aliases fields) (.record isError' m aliases' fields')

/-- A type is a union. -/
def IsUnion (form : Form) : Prop := ∃ branches, form = .union branches

/-- The rules of schema resolution, given what holds of the parts: a union of the writer is read if
every branch is, any other type by a union of the reader if some branch reads it. -/
inductive ReadsStep (reads : Form → Form → Prop) : Form → Form → Prop where
  | every {r : Form} {branches : List Form} (each : ∀ b ∈ branches, reads r b) :
      ReadsStep reads r (.union branches)
  | some {branches : List Form} {w b : Form} (single : ¬ IsUnion w) (mem : b ∈ branches)
      (one : reads b w) : ReadsStep reads (.union branches) w
  | plain {r w : Form} (reader : ¬ IsUnion r) (writer : ¬ IsUnion w)
      (matched : Matches reads r w) : ReadsStep reads r w

/-- A relation between types of two schemas that agrees with the rules, names looked up in the
schema that each type is of. -/
def Consistent (reader writer : Form) (reads : Form → Form → Prop) : Prop :=
  ∀ a b, reads a b → ReadsStep reads (reader.resolve a) (writer.resolve b)

/-- A type of the reader reads one of the writer: the greatest relation that agrees with the
rules. -/
def Reads (reader writer r w : Form) : Prop :=
  ∃ reads : Form → Form → Prop, Consistent reader writer reads ∧ reads r w

/-! ## The greatest relation -/

section

variable {reads wider : Form → Form → Prop}

theorem FieldsRead.mono {reader writer : List (FieldHead × Form)}
    (le : ∀ f ∈ reader, ∀ g, counterpart? writer f.1 = some g → reads f.2 g.2 → wider f.2 g.2)
    (h : FieldsRead reads reader writer) : FieldsRead wider reader writer where
  found f mem g found := le f mem g found (h.found f mem g found)
  missing := h.missing
  removed := h.removed

theorem Matches.mono (le : ∀ a b, reads a b → wider a b) {r w : Form} (h : Matches reads r w) :
    Matches wider r w := by
  cases h with
  | primitive known reader writer => exact .primitive known reader writer
  | promotion reader writer promoted => exact .promotion reader writer promoted
  | array items => exact .array (le _ _ items)
  | map values => exact .map (le _ _ values)
  | fixed names sizes => exact .fixed names sizes
  | enumeration names known => exact .enumeration names known
  | record names read => exact .record names (read.mono fun f _ g _ => le f.2 g.2)

theorem ReadsStep.mono (le : ∀ a b, reads a b → wider a b) {r w : Form}
    (h : ReadsStep reads r w) : ReadsStep wider r w := by
  cases h with
  | every each => exact .every fun b mem => le _ _ (each b mem)
  | some single mem one => exact .some single mem (le _ _ one)
  | plain reader writer matched => exact .plain reader writer (matched.mono le)

/-! ## What the rules ask for -/

theorem Matches.items {c d : Form} (h : Matches reads (.array c) (.array d)) : reads c d := by
  cases h with
  | primitive _ none => cases none
  | promotion none => cases none
  | array items => exact items

theorem Matches.values {c d : Form} (h : Matches reads (.map c) (.map d)) : reads c d := by
  cases h with
  | primitive _ none => cases none
  | promotion none => cases none
  | map values => exact values

theorem Matches.fields {isError isError' : Bool} {n m : String} {aliases aliases' : List Json}
    {fields fields' : List (FieldHead × Form)}
    (h : Matches reads (.record isError n aliases fields)
      (.record isError' m aliases' fields')) :
    NamesAgree n aliases m ∧ FieldsRead reads fields fields' := by
  cases h with
  | primitive _ none => cases none
  | promotion none => cases none
  | record names read => exact ⟨names, read⟩

/-- A union of the writer is read if every branch is. -/
theorem ReadsStep.branches {r : Form} {branches : List Form}
    (h : ReadsStep reads r (.union branches)) : ∀ c ∈ branches, reads r c := by
  cases h with
  | every each => exact each
  | some single => exact absurd ⟨branches, rfl⟩ single
  | plain _ single => exact absurd ⟨branches, rfl⟩ single

/-- A type that is no union is read by a union of the reader if some branch reads it. -/
theorem ReadsStep.branch {w : Form} {branches : List Form}
    (h : ReadsStep reads (.union branches) w) (single : ¬ IsUnion w) :
    ∃ c ∈ branches, reads c w := by
  cases h with
  | every each => exact absurd ⟨_, rfl⟩ single
  | some _ mem one => exact ⟨_, mem, one⟩
  | plain union => exact absurd ⟨branches, rfl⟩ union

/-- Two types that are no unions match. -/
theorem ReadsStep.matched {r w : Form} (h : ReadsStep reads r w) (reader : ¬ IsUnion r)
    (writer : ¬ IsUnion w) : Matches reads r w := by
  cases h with
  | every each => exact absurd ⟨_, rfl⟩ writer
  | some _ _ _ => exact absurd ⟨_, rfl⟩ reader
  | plain _ _ matched => exact matched

end

/-- `Reads` itself agrees with the rules, so it is the greatest relation that does. -/
theorem reads_consistent (reader writer : Form) :
    Consistent reader writer (Reads reader writer) := by
  rintro a b ⟨reads, consistent, holds⟩
  exact (consistent a b holds).mono fun c d h => ⟨reads, consistent, h⟩

/-- What holds of two types is what the rules say of them. -/
theorem reads_iff (reader writer a b : Form) :
    Reads reader writer a b ↔
      ReadsStep (Reads reader writer) (reader.resolve a) (writer.resolve b) := by
  refine ⟨fun h => reads_consistent reader writer a b h, fun h => ?_⟩
  refine ⟨fun c d => c = a ∧ d = b ∨ Reads reader writer c d, ?_, .inl ⟨rfl, rfl⟩⟩
  intro c d holds
  have step : ReadsStep (Reads reader writer) (reader.resolve c) (writer.resolve d) := by
    rcases holds with ⟨rfl, rfl⟩ | holds
    · exact h
    · exact reads_consistent reader writer c d holds
  exact step.mono fun _ _ => .inr

end AvroRegistry.Compatibility
