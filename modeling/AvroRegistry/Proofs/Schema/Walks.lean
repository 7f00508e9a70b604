import AvroRegistry.Proofs.Json.Values
import AvroRegistry.Proofs.Runs
import AvroRegistry.Schema.Normalize

/-!
# The two walks over a schema, shape by shape

`acceptType` and `normalizeType` both go through a schema along the word under `type`. The equations
below give what each does for every such word, so that a proof about the two walks follows the
shapes of the language and opens neither definition.
-/

namespace AvroRegistry.Schema

/-! ## The words under `type` -/

/-- The words that begin a type with parts or a name. -/
def constructors : List String := ["record", "error", "enum", "fixed", "array", "map"]

/-- Whether the value under `type` is one of these words. -/
def isConstructor : Json → Bool
  | .str word => constructors.contains word
  | _ => false

/-- Any other word is none of them. -/
theorem ne_of_plain {word : String} (plain : isConstructor (.str word) = false) :
    word ≠ "record" ∧ word ≠ "error" ∧ word ≠ "enum" ∧ word ≠ "fixed" ∧ word ≠ "array" ∧
      word ≠ "map" := by
  simpa [isConstructor, constructors] using plain

/-- What can stand under `type` in an object. -/
inductive Shape (members : List (String × Json)) : Prop where
  | untyped (h : Json.lookup "type" members = none)
  | record (isError : Bool) (h : Json.lookup "type" members = some (.str (recordKind isError)))
  | enumeration (h : Json.lookup "type" members = some (.str "enum"))
  | fixed (h : Json.lookup "type" members = some (.str "fixed"))
  | array (h : Json.lookup "type" members = some (.str "array"))
  | map (h : Json.lookup "type" members = some (.str "map"))
  | other (type : Json) (h : Json.lookup "type" members = some type)
      (plain : isConstructor type = false)

/-- Every object has one of the shapes. -/
theorem shape (members : List (String × Json)) : Shape members := by
  cases h : Json.lookup "type" members with
  | none => exact .untyped h
  | some type =>
    by_cases plain : isConstructor type = false
    · exact .other type h plain
    · cases type with
      | str word =>
        simp only [isConstructor, constructors, Bool.not_eq_false, List.contains_eq_mem,
          List.mem_cons, List.not_mem_nil, or_false, decide_eq_true_eq] at plain
        rcases plain with rfl | rfl | rfl | rfl | rfl | rfl
        · exact .record false h
        · exact .record true h
        · exact .enumeration h
        · exact .fixed h
        · exact .array h
        · exact .map h
      | _ => exact absurd rfl plain

/-! ## Types with one part -/

/-- The constructors of a type with one part. -/
inductive Container where
  | array
  | map

namespace Container

/-- The word under `type`. -/
def word : Container → String
  | array => "array"
  | map => "map"

/-- The key of the part. -/
def key : Container → String
  | array => "items"
  | map => "values"

/-- Whether a default is a value of such a type, as far as the type alone can tell. -/
def fits : Container → Json → Except Breakdown Bool
  | array => isArray
  | map => isObject

/-- The form of the type, given that of its part. -/
def form : Container → Form → Form
  | array => .array
  | map => .map

theorem type_ne_key (container : Container) : "type" ≠ container.key := by
  cases container
  all_goals decide

end Container

/-! ## Members that have to be there -/

theorem acceptUnder_eq (key : String) (space : Space) (default : Option Json)
    (members : List (String × Json)) :
    acceptUnder key space default members =
      match Json.lookup key members with
      | none => collapse (.missingKey key)
      | some v => acceptType space default v := by
  induction members with
  | nil => rw [acceptUnder, Json.lookup_nil]
  | cons m rest ih =>
    obtain ⟨k, v⟩ := m
    rw [acceptUnder, Json.lookup_cons, ih]
    split <;> rfl

theorem normalizeUnder_eq (key space : String) (members : List (String × Json)) :
    normalizeUnder key space members =
      match Json.lookup key members with
      | none => breakOff (.missingKey key)
      | some v => normalizeType space v := by
  induction members with
  | nil => rw [normalizeUnder, Json.lookup_nil]
  | cons m rest ih =>
    obtain ⟨k, v⟩ := m
    rw [normalizeUnder, Json.lookup_cons, ih]
    split <;> rfl

/-- The fields that are accepted are those under `fields`; where something else is put in their
place, it has to be empty. -/
theorem acceptFieldsOf_eq (space : Space) (members : List (String × Json)) :
    acceptFieldsOf space members =
      match Json.lookup "fields" members with
      | none => pure ()
      | some (.arr fields) => acceptFields space fields
      | some v =>
        match v.elements with
        | .error b => collapse b
        | .ok [] => pure ()
        | .ok (first :: _) => refuse (.fieldNotAnObject first) := by
  induction members with
  | nil => rw [acceptFieldsOf, Json.lookup_nil]
  | cons m rest ih =>
    obtain ⟨k, v⟩ := m
    rw [acceptFieldsOf.eq_def, Json.lookup_cons]
    dsimp only
    rw [ih]
    split
    · cases v <;> rfl
    · rfl

theorem normalizeFieldsOf_eq (full space : String) (members : List (String × Json)) :
    normalizeFieldsOf full space members =
      match Json.lookup "fields" members with
      | none => reject (.noFields full)
      | some (.arr []) => reject (.noFields full)
      | some (.arr fields) => normalizeFields full space [] fields
      | some v => if v.truthy then breakOff .wrongKind else reject (.noFields full) := by
  induction members with
  | nil => rw [normalizeFieldsOf, Json.lookup_nil]
  | cons m rest ih =>
    obtain ⟨k, v⟩ := m
    rw [normalizeFieldsOf.eq_def, Json.lookup_cons]
    dsimp only
    rw [ih]
    split
    · cases v with
      | arr items => cases items <;> rfl
      | _ => rfl
    · rfl

section

variable {members : List (String × Json)} (space : String) (outer : Space) (default : Option Json)

/-! ## Normalizing -/

theorem normalizeType_obj (members : List (String × Json)) :
    normalizeType space (.obj members) =
      match Json.lookup "type" members with
      | none => reject (.typeRequired (.obj members))
      | some type =>
        match type with
        | .null => reject (.typeRequired (.obj members))
        | .str "record" => do
          let (full, aliases) ← introduce space type members
          let fields ← normalizeFieldsOf full (spaceOf full) members
          return .record false full aliases fields
        | .str "error" => do
          let (full, aliases) ← introduce space type members
          let fields ← normalizeFieldsOf full (spaceOf full) members
          return .record true full aliases fields
        | .str "enum" => normalizeEnum space type members
        | .str "fixed" => normalizeFixed space type members
        | .str "array" => do return .array (← normalizeUnder "items" space members)
        | .str "map" => do return .map (← normalizeUnder "values" space members)
        | type => normalizeOther space type members := by
  unfold normalizeType
  rfl

theorem normalizeType_str (name : String) :
    normalizeType space (.str name) = resolve name space := by
  unfold normalizeType
  rfl

theorem normalizeType_untyped (h : Json.lookup "type" members = none) :
    normalizeType space (.obj members) = reject (.typeRequired (.obj members)) := by
  rw [normalizeType_obj, h]

theorem normalizeType_record {isError : Bool}
    (h : Json.lookup "type" members = some (.str (recordKind isError))) :
    normalizeType space (.obj members) = (do
      let (full, aliases) ← introduce space (.str (recordKind isError)) members
      let fields ← normalizeFieldsOf full (spaceOf full) members
      return .record isError full aliases fields) := by
  rw [normalizeType_obj, h]
  cases isError <;> rfl

theorem normalizeType_enumeration (h : Json.lookup "type" members = some (.str "enum")) :
    normalizeType space (.obj members) = normalizeEnum space (.str "enum") members := by
  rw [normalizeType_obj, h]
  rfl

theorem normalizeType_fixed (h : Json.lookup "type" members = some (.str "fixed")) :
    normalizeType space (.obj members) = normalizeFixed space (.str "fixed") members := by
  rw [normalizeType_obj, h]
  rfl

theorem normalizeType_container {container : Container}
    (h : Json.lookup "type" members = some (.str container.word)) :
    normalizeType space (.obj members) =
      (do return container.form (← normalizeUnder container.key space members)) := by
  rw [normalizeType_obj, h]
  cases container <;> rfl

theorem normalizeType_other {type : Json} (h : Json.lookup "type" members = some type)
    (plain : isConstructor type = false) :
    normalizeType space (.obj members) =
      if type = .null then reject (.typeRequired (.obj members))
      else normalizeOther space type members := by
  rw [normalizeType_obj, h]
  cases type with
  | str word =>
    obtain ⟨h₁, h₂, h₃, h₄, h₅, h₆⟩ := ne_of_plain plain
    simp [h₁, h₂, h₃, h₄, h₅, h₆]
  | _ => simp

/-! ## Accepting -/

theorem acceptType_str (name : String) :
    acceptType outer default (.str name) = acceptWord outer default (.str name) := by
  unfold acceptType
  rfl

theorem acceptType_primitive {name : String} (primitive : isPrimitive name = true) :
    acceptType outer default (.str name) =
      requireDefault default (.str name) (fitsPrimitive false name) := by
  rw [acceptType_str]
  exact if_pos primitive

theorem acceptType_obj (members : List (String × Json)) :
    acceptType outer default (.obj members) =
      match Json.lookup "type" members with
      | none => collapse (.missingKey "type")
      | some type => (do
        checkDecimal type members
        match type with
        | .str "array" =>
          acceptUnder "items" outer none members
          requireDefault default type isArray
        | .str "map" =>
          acceptUnder "values" outer none members
          requireDefault default type isObject
        | .str "enum" =>
          let (full, _) ← fullNameOf outer members
          declare full
          checkSymbols members
          requireDefault default type isText
          learn full
        | .str "fixed" =>
          let (full, _) ← fullNameOf outer members
          declare full
          requireDefault default type isText
          learn full
          discard (member "size" members)
        | .str "record" =>
          let (full, inner) ← fullNameOf outer members
          declare full
          requireDefault default type isObject
          learn full
          acceptFieldsOf inner members
        | .str "error" =>
          let (full, inner) ← fullNameOf outer members
          declare full
          requireDefault default type isObject
          learn full
          acceptFieldsOf inner members
        | type => acceptPrimitive type default members) := by
  unfold acceptType
  rfl

theorem acceptType_untyped (h : Json.lookup "type" members = none) :
    acceptType outer default (.obj members) = collapse (.missingKey "type") := by
  rw [acceptType_obj, h]

theorem acceptType_record {isError : Bool}
    (h : Json.lookup "type" members = some (.str (recordKind isError))) :
    acceptType outer default (.obj members) = (do
      checkDecimal (.str (recordKind isError)) members
      let (full, inner) ← fullNameOf outer members
      declare full
      requireDefault default (.str (recordKind isError)) isObject
      learn full
      acceptFieldsOf inner members) := by
  rw [acceptType_obj, h]
  cases isError <;> rfl

theorem acceptType_enumeration (h : Json.lookup "type" members = some (.str "enum")) :
    acceptType outer default (.obj members) = (do
      checkDecimal (.str "enum") members
      let (full, _) ← fullNameOf outer members
      declare full
      checkSymbols members
      requireDefault default (.str "enum") isText
      learn full) := by
  rw [acceptType_obj, h]
  rfl

theorem acceptType_fixed (h : Json.lookup "type" members = some (.str "fixed")) :
    acceptType outer default (.obj members) = (do
      checkDecimal (.str "fixed") members
      let (full, _) ← fullNameOf outer members
      declare full
      requireDefault default (.str "fixed") isText
      learn full
      discard (member "size" members)) := by
  rw [acceptType_obj, h]
  rfl

theorem acceptType_container {container : Container}
    (h : Json.lookup "type" members = some (.str container.word)) :
    acceptType outer default (.obj members) = (do
      checkDecimal (.str container.word) members
      acceptUnder container.key outer none members
      requireDefault default (.str container.word) container.fits) := by
  rw [acceptType_obj, h]
  cases container <;> rfl

theorem acceptType_other {type : Json} (h : Json.lookup "type" members = some type)
    (plain : isConstructor type = false) :
    acceptType outer default (.obj members) = (do
      checkDecimal type members
      acceptPrimitive type default members) := by
  rw [acceptType_obj, h]
  cases type with
  | str word =>
    obtain ⟨h₁, h₂, h₃, h₄, h₅, h₆⟩ := ne_of_plain plain
    simp [h₁, h₂, h₃, h₄, h₅, h₆]
  | _ => simp

end

end AvroRegistry.Schema
