import AvroRegistry.Proofs.Schema.Linked

/-!
# Canonical forms read back

The value of a canonical form, read back from its text, is that value with the members of every
object in the order of the text. What is found under a key is read back from what was written there,
so each kind of type has its structure of what is found in its members: `RecordRead`, `EnumRead`,
`FixedRead`, `PartRead`, `FieldRead`, and `Reintroduced` for what named types have in common.
-/

namespace AvroRegistry.Schema

open Json (lookup arranged compact)

/-! ## Members read back -/

/-- Members as they are read back from a canonical text. -/
def readBack (members : List (String × Json)) : List (String × Json) :=
  Json.mapMembers (arranged compact) (Json.arrange compact members)

theorem lookup_readBack {members : List (String × Json)} (distinct : (Json.keys members).Nodup)
    (key : String) : lookup key (readBack members) = (lookup key members).map (arranged compact) :=
  Json.lookup_arranged compact distinct key

theorem arranged_readBack (members : List (String × Json)) :
    arranged compact (.obj members) = .obj (readBack members) := Json.arranged_obj compact members

theorem readBack_perm (members : List (String × Json)) :
    (readBack members).Perm (Json.mapMembers (arranged compact) members) :=
  (Json.arrange_perm compact members).map _

/-- Members are read back in the order of the text. -/
theorem readBack_eq {xs ys : List (String × Json)} (perm : xs.Perm ys)
    (distinct : (Json.keys xs).Nodup) (sorted : ys.Pairwise fun m m' => m.1 ≤ m'.1) :
    readBack xs = Json.mapMembers (arranged compact) ys := by
  unfold readBack
  rw [Json.arrange_perm_eq compact rfl perm distinct]
  unfold Json.arrange
  rw [if_pos (show compact.sortKeys = true from rfl),
    List.mergeSort_of_pairwise (sorted.imp fun le => decide_eq_true le)]

/-- The member in which aliases are read back. -/
def aliasesRead : List Json → Option Json
  | [] => none
  | first :: rest => some (.arr ((first :: rest).map (arranged compact)))

theorem aliasesRead_eq (aliases : List Json) :
    (if aliases ≠ [] then some (Json.arr aliases) else none).map (arranged compact) =
      aliasesRead aliases := by
  cases aliases with
  | nil => rfl
  | cons first rest =>
    rw [if_pos (List.cons_ne_nil _ _), Option.map_some, Json.arranged_arr]
    rfl

/-- Symbols may be keys, so they are read back as they are. -/
theorem arranged_keys {values : List Json} (keys : values.all Json.isKey = true) :
    values.map (arranged compact) = values := by
  rw [List.all_eq_true] at keys
  rw [List.map_congr_left fun v mem => Json.arranged_of_isKey compact (keys v mem), List.map_id']

/-! ## Named types -/

/-- The members of a definition that are read back, as far as its name goes. -/
structure Reintroduced (full : String) (aliases : List Json) (stored : List (String × Json)) :
    Prop where
  named : lookup "name" stored = some (.str full)
  nowhere : lookup "namespace" stored = none
  aliased : lookup "aliases" stored = aliasesRead aliases

/-! ## Fields -/

/-- What is read back of a field. -/
structure FieldRead (head : FieldHead) (type : Json) (stored : List (String × Json)) : Prop where
  named : lookup "name" stored = some (arranged compact head.name)
  typed : lookup "type" stored = some (arranged compact type)
  default : lookup "default" stored = head.default.map (arranged compact)
  aliased : lookup "aliases" stored = aliasesRead head.aliases
  ordered : lookup "order" stored = head.order.map (arranged compact)

theorem fieldRead (head : FieldHead) (type : Json) :
    FieldRead head type (readBack (fieldMembers head type)) := by
  constructor
  all_goals rw [lookup_readBack (keys_fieldMembers head type), lookup_fieldMembers]
  · simp
  · simp
  · simp
  · rw [← aliasesRead_eq]
    simp
  · simp

theorem orderedField_eq (field : FieldHead × Form) :
    orderedField field = .obj (readBack (fieldMembers field.1 field.2.toJson)) :=
  arranged_readBack _

/-! ## Records -/

/-- What is read back of a record. -/
structure RecordRead (isError : Bool) (full : String) (aliases : List Json)
    (fields : List (FieldHead × Form)) (stored : List (String × Json)) : Prop extends
    Reintroduced full aliases stored where
  typed : lookup "type" stored = some (.str (recordKind isError))
  listed : lookup "fields" stored = some (.arr (fields.map orderedField))

theorem recordRead (isError : Bool) (full : String) (aliases : List Json)
    (fields : List (FieldHead × Form)) :
    RecordRead isError full aliases fields
      (readBack (recordMembers isError full aliases fields)) := by
  refine ⟨⟨?_, ?_, ?_⟩, ?_, ?_⟩
  all_goals
    rw [lookup_readBack (keys_recordMembers isError full aliases fields), lookup_recordMembers]
  · rfl
  · rfl
  · rw [← aliasesRead_eq]
    simp
  · rfl
  · have values : (fields.map fun f => f.1.toJson f.2.toJson).map (arranged compact) =
        fields.map orderedField := List.map_map
    rw [← values, ← Json.arranged_arr]
    rfl

theorem readBack_record (isError : Bool) (full : String) (aliases : List Json)
    (fields : List (FieldHead × Form)) :
    (Form.record isError full aliases fields).ordered =
      .obj (readBack (recordMembers isError full aliases fields)) := by
  unfold Form.ordered
  rw [toJson_record, arranged_readBack]

/-! ## Enums and fixed types -/

/-- What is read back of an enum. -/
structure EnumRead (full : String) (aliases symbols : List Json) (default : Option Json)
    (stored : List (String × Json)) : Prop extends Reintroduced full aliases stored where
  typed : lookup "type" stored = some (.str "enum")
  listed : lookup "symbols" stored = some (.arr (symbols.map (arranged compact)))
  defaulted : lookup "default" stored = default.map (arranged compact)

theorem enumRead (full : String) (aliases symbols : List Json) (default : Option Json) :
    EnumRead full aliases symbols default
      (readBack (enumMembers full aliases symbols default)) := by
  refine ⟨⟨?_, ?_, ?_⟩, ?_, ?_, ?_⟩
  all_goals
    rw [lookup_readBack (keys_enumMembers full aliases symbols default), lookup_enumMembers]
  · rfl
  · rfl
  · rw [← aliasesRead_eq]
    simp
  · rfl
  · simp [Json.arranged_arr]
  · simp

theorem readBack_enumeration (full : String) (aliases symbols : List Json)
    (default : Option Json) :
    (Form.enumeration full aliases symbols default).ordered =
      .obj (readBack (enumMembers full aliases symbols default)) := arranged_readBack _

/-- The attributes that a fixed type keeps are those under their keys. -/
theorem lookup_fixedAttributes_kept (members : List (String × Json)) {key : String}
    (kept : key ∈ Form.fixedKeys) :
    lookup key (fixedAttributes members) = lookup key members := by
  cases found : lookup key members with
  | some v =>
    have mem : (key, v) ∈ fixedAttributes members :=
      List.mem_filterMap.2 ⟨key, kept, by rw [found]; rfl⟩
    exact Json.lookup_of_mem ((fixedAttributes_sublist members).nodup (by decide)) mem
  | none =>
    refine Json.lookup_eq_none fun m mem same => ?_
    have other := fixedAttributes_mem mem
    rw [same, found] at other
    cases other

theorem lookup_fixedMembers_kept (full : String) (aliases : List Json) (size : Json)
    (attributes : List (String × Json)) {key : String} (kept : key ∈ Form.fixedKeys) :
    lookup key (fixedMembers full aliases size attributes) = lookup key attributes := by
  unfold fixedMembers
  rw [Json.lookup_append, Json.lookup_append, Json.lookup_append, lookup_aliasMember]
  unfold Form.fixedKeys at kept
  simp only [List.mem_cons, List.not_mem_nil, or_false] at kept
  rcases kept with rfl | rfl | rfl <;> simp

/-- What is read back of a fixed type. -/
structure FixedRead (full : String) (aliases : List Json) (size : Json)
    (members stored : List (String × Json)) : Prop extends Reintroduced full aliases stored where
  typed : lookup "type" stored = some (.str "fixed")
  sized : lookup "size" stored = some (arranged compact size)
  kept : ∀ key ∈ Form.fixedKeys, lookup key stored = (lookup key members).map (arranged compact)

theorem fixedRead (full : String) (aliases : List Json) (size : Json)
    (members : List (String × Json)) :
    FixedRead full aliases size members
      (readBack (fixedMembers full aliases size (fixedAttributes members))) := by
  have found := fun key =>
    lookup_readBack (keys_fixedMembers full aliases size members) key
  have own : ∀ key, key ∉ Form.fixedKeys → lookup key (readBack (fixedMembers full aliases size
      (fixedAttributes members))) = _ := fun key other =>
    (found key).trans (congrArg _ (lookup_fixedMembers full aliases size
      (fixedAttributes_keys members) other))
  refine ⟨⟨?_, ?_, ?_⟩, ?_, ?_, fun key kept => ?_⟩
  · exact own "name" (by decide)
  · exact own "namespace" (by decide)
  · rw [own "aliases" (by decide), ← aliasesRead_eq]
    simp
  · exact own "type" (by decide)
  · rw [own "size" (by decide)]
    simp
  · rw [found, lookup_fixedMembers_kept full aliases size _ kept,
      lookup_fixedAttributes_kept members kept]

theorem readBack_fixed (full : String) (aliases : List Json) (size : Json)
    (attributes : List (String × Json)) :
    (Form.fixed full aliases size attributes).ordered =
      .obj (readBack (fixedMembers full aliases size attributes)) := arranged_readBack _

/-! ## Other types -/

/-- What is found in the members of an array or a map. -/
structure PartRead (c : Container) (part : Form) (stored : List (String × Json)) : Prop where
  typed : lookup "type" stored = some (.str c.word)
  held : lookup c.key stored = some part.ordered
  others : ∀ key ∉ ["type", "items", "values"], lookup key stored = none

theorem partRead (c : Container) (part : Form) :
    PartRead c part (readBack (partMembers c.word c.key part.toJson)) := by
  have found := lookup_readBack (keys_partMembers c part.toJson)
  refine ⟨found "type", ?_, fun key other => ?_⟩
  · rw [found, partMembers, Json.lookup_cons, if_neg c.type_ne_key, Json.lookup_cons, if_pos rfl]
    rfl
  · simp only [List.mem_cons, List.not_mem_nil, or_false, not_or] at other
    obtain ⟨type, items, values⟩ := other
    have apart : c.key ≠ key := by
      cases c with
      | array => exact Ne.symm items
      | map => exact Ne.symm values
    rw [found, partMembers, Json.lookup_cons, if_neg (Ne.symm type), Json.lookup_cons,
      if_neg apart]
    rfl

theorem readBack_container (c : Container) (part : Form) :
    (c.form part).ordered = .obj (readBack (partMembers c.word c.key part.toJson)) := by
  unfold Form.ordered
  rw [toJson_container, arranged_readBack]

theorem readBack_union (branches : List Form) :
    (Form.union branches).ordered = .arr (branches.map Form.ordered) := by
  unfold Form.ordered
  rw [toJson_union, Json.arranged_arr, List.map_map]
  rfl

/-- The members of the value of a primitive type with attributes. -/
def annotatedMembers (name : String) (kept : List (String × Json)) : List (String × Json) :=
  ("type", .str name) :: kept

theorem keys_annotatedMembers (name : String) {members : List (String × Json)}
    (distinct : (Json.keys members).Nodup) :
    (Json.keys (annotatedMembers name (attributes members))).Nodup := keys_annotated name distinct

theorem readBack_annotated (name : String) (kept : List (String × Json)) :
    (Form.annotated name kept).ordered = .obj (readBack (annotatedMembers name kept)) :=
  arranged_readBack _

end AvroRegistry.Schema
