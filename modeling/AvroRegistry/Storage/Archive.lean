import AvroRegistry.Json.Decode
import AvroRegistry.Json.Encode
import AvroRegistry.Storage.Tables
import AvroRegistry.Text.Utf8

/-!
# The tables as a value

The tables written down as one value, a list of rows for each table, and read back from it.
`Tables.ofJson?_toJson` says that nothing is lost; a value that no tables are written as is refused.
-/

namespace AvroRegistry

/-! ## Rows -/

/-- A schema row as a value. -/
def SchemaRow.record (r : SchemaRow) : Json :=
  .arr [.int r.id, .str r.fingerprint, .str r.canonical, .str r.raw]

/-- The schema row that a value is. -/
def SchemaRow.ofRecord? : Json → Option SchemaRow
  | .arr [.int id, .str fingerprint, .str canonical, .str raw] =>
    some ⟨id, fingerprint, canonical, raw⟩
  | _ => none

/-- A version row as a value. -/
def VersionRow.record (r : VersionRow) : Json :=
  .arr [.str r.scope.subject, .str r.scope.part.name, r.number.toJson, r.schemaId.toJson,
    .bool r.deleted]

/-- The version row that a value is. -/
def VersionRow.ofRecord? : Json → Option VersionRow
  | .arr [.str subject, .str part, number, schemaId, .bool deleted] =>
    match Scope.make (.str subject) (.str part), Cell.ofJson? number, Cell.ofJson? schemaId with
    | .ok scope, some number, some schemaId => some ⟨scope, number, schemaId, deleted⟩
    | _, _, _ => none
  | _ => none

/-- A mode row as a value. -/
def ConfigRow.record (r : ConfigRow) : Json := .arr [Json.ofText? r.key, .str r.mode]

/-- The mode row that a value is. -/
def ConfigRow.ofRecord? : Json → Option ConfigRow
  | .arr [.str key, .str mode] => some ⟨some key, mode⟩
  | .arr [.null, .str mode] => some ⟨none, mode⟩
  | _ => none

theorem SchemaRow.ofRecord?_record (r : SchemaRow) : ofRecord? r.record = some r := rfl

theorem VersionRow.ofRecord?_record (r : VersionRow) : ofRecord? r.record = some r := by
  have scope : Scope.make (.str r.scope.subject) (.str r.scope.part.name) = .ok r.scope := by
    simp [Scope.make, Part.ofJson, Part.ofJson?, Part.ofName?_name, Scope.ofValues,
      Scope.ofSubject, r.scope.subject_not_blank]
  simp [record, ofRecord?, scope, Cell.ofJson?_toJson]

theorem ConfigRow.ofRecord?_record (r : ConfigRow) : ofRecord? r.record = some r := by
  obtain ⟨key, mode⟩ := r
  cases key <;> rfl

/-! ## Tables -/

namespace Tables

/-- The rows that values are, if all of them are rows. -/
def rows? {α : Type} (ofRecord? : Json → Option α) : List Json → Option (List α)
  | [] => some []
  | v :: rest =>
    match ofRecord? v, rows? ofRecord? rest with
    | some row, some rows => some (row :: rows)
    | _, _ => none

/-- Rows are read back from what they are written as, one by one. -/
theorem rows?_map {α : Type} (ofRecord? : Json → Option α) (record : α → Json)
    (back : ∀ row, ofRecord? (record row) = some row) (rows : List α) :
    rows? ofRecord? (rows.map record) = some rows := by
  induction rows with
  | nil => rfl
  | cons row rest ih => simp [rows?, back row, ih]

/-- The tables as a value. -/
def toJson (t : Tables) : Json :=
  .obj [("schemas", .arr (t.schemas.map SchemaRow.record)),
    ("versions", .arr (t.versions.map VersionRow.record)),
    ("modes", .arr (t.config.map ConfigRow.record))]

/-- The tables that a value is. -/
def ofJson? (v : Json) : Option Tables :=
  match v.get? "schemas", v.get? "versions", v.get? "modes" with
  | some (.arr schemas), some (.arr versions), some (.arr modes) =>
    match rows? SchemaRow.ofRecord? schemas, rows? VersionRow.ofRecord? versions,
      rows? ConfigRow.ofRecord? modes with
    | some schemas, some versions, some modes => some ⟨schemas, versions, modes⟩
    | _, _, _ => none
  | _, _, _ => none

/-- Tables are read back from the value they are written as. -/
theorem ofJson?_toJson (t : Tables) : ofJson? t.toJson = some t := by
  simp [ofJson?, toJson, Json.get?, Json.lookup,
    rows?_map _ _ SchemaRow.ofRecord?_record, rows?_map _ _ VersionRow.ofRecord?_record,
    rows?_map _ _ ConfigRow.ofRecord?_record]

/-- The text that tables are kept as. -/
def archive (t : Tables) : String := t.toJson.encode Json.compact

/-- The tables that bytes are kept of, if they are. -/
def ofArchive? (bytes : List Nat) : Option Tables :=
  match Text.decodeUtf8 bytes with
  | .error _ => none
  | .ok cs =>
    match Json.decode (String.ofList cs) with
    | .error _ => none
    | .ok v => ofJson? v

end Tables

end AvroRegistry
