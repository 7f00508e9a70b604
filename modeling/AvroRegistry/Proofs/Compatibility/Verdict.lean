import AvroRegistry.Proofs.Compatibility.Budget
import AvroRegistry.Proofs.Compatibility.References

/-!
# The verdict on two canonical schemas

`finds_nothing_iff_reads`: of two schemas in canonical form, each of which defines a full name once,
a check finds nothing exactly if data of the one can be read with the other.

That names are defined once is needed. A schema that is a union at the top may define a name in one
branch and another type of that name in a second one, and pairs are met by name, so that the second
type passes unseen if the first one did (`passes_unread`). Schemas of any other kind define a name
once (`Closed.onceInAll`).
-/

namespace AvroRegistry.Compatibility

open Schema (Form FieldHead)

/-- A check of two linked schemas runs from no pairs, within the budget. -/
theorem checkReaderWriter_eq {reader writer : Form} (linkedR : Linked reader)
    (linkedW : Linked writer) :
    checkReaderWriter reader.toJson writer.toJson =
      (checkForms reader writer (budget (enter [] reader.nodes) (enter [] writer.nodes)
        reader.toJson writer.toJson) reader writer "" []).map (·.1) := by
  unfold checkReaderWriter
  rw [namesOf_toJson linkedR.tidy, namesOf_toJson linkedW.tidy]
  show (checkForms _ _ _ _ _ _ [] >>= fun result => pure result.1) = _
  cases checkForms reader writer (budget (enter [] reader.nodes) (enter [] writer.nodes)
    reader.toJson writer.toJson) reader writer "" [] <;> rfl

/-- What is brought into canonical form is linked. -/
theorem linked_of_canonicalize {schema : Json} {c : Schema.Canonical}
    (ok : Schema.canonicalize schema = .ok c) : Linked c.form := by
  obtain ⟨raw, v, given⟩ := Schema.exists_submitted ok
  obtain ⟨-, normalized⟩ := canonicalize_eq_ok given ok
  obtain ⟨after, normalized⟩ := normalize_eq normalized
  exact linked_of_built (Schema.normalizeType_built v normalized)

/-! ## Each direction of the verdict -/

section

variable {reader writer : Form}

/-- A check whose reader has aliases that can be compared gives a result. -/
theorem checkReaderWriter_total (linkedR : Linked reader) (linkedW : Linked writer)
    (textual : Textual reader) :
    ∃ violations, checkReaderWriter reader.toJson writer.toJson = .ok violations := by
  have noted : Noted reader writer [] := ⟨List.nodup_nil, List.nil_subset _⟩
  obtain ⟨found, pairs, checked, -⟩ := finishes linkedR linkedW textual _ _ reader.self_mem_nodes _
    writer.self_mem_nodes "" [] noted (depth_le_budget reader writer)
  rw [checkReaderWriter_eq linkedR linkedW, checked]
  exact ⟨found, rfl⟩

/-- A check that gave a result went through from no pairs. -/
theorem checked_of_checkReaderWriter (linkedR : Linked reader) (linkedW : Linked writer)
    {violations : List Violation}
    (ok : checkReaderWriter reader.toJson writer.toJson = .ok violations) :
    ∃ pairs, checkForms reader writer (budget (enter [] reader.nodes) (enter [] writer.nodes)
      reader.toJson writer.toJson) reader writer "" [] = .ok (violations, pairs) := by
  rw [checkReaderWriter_eq linkedR linkedW] at ok
  cases checked : checkForms reader writer (budget (enter [] reader.nodes) (enter [] writer.nodes)
      reader.toJson writer.toJson) reader writer "" [] with
  | error b =>
    rw [checked] at ok
    cases ok
  | ok result =>
    obtain ⟨found, pairs⟩ := result
    rw [checked] at ok
    cases ok
    exact ⟨pairs, rfl⟩

/-- A schema that a check found nothing against is read, if both define each name once. -/
theorem reads_of_checkReaderWriter (linkedR : Linked reader) (linkedW : Linked writer)
    (onceR : reader.definedNames.Nodup) (onceW : writer.definedNames.Nodup)
    (ok : checkReaderWriter reader.toJson writer.toJson = .ok []) :
    Reads reader writer reader writer := by
  obtain ⟨pairs, checked⟩ := checked_of_checkReaderWriter linkedR linkedW ok
  exact reads_of_passed linkedR linkedW onceR onceW checked

/-- A check of a schema against one that it reads finds nothing, if it gives a result. -/
theorem eq_nil_of_reads (linkedR : Linked reader) (linkedW : Linked writer)
    (reads : Reads reader writer reader writer) {violations : List Violation}
    (ok : checkReaderWriter reader.toJson writer.toJson = .ok violations) : violations = [] := by
  obtain ⟨related, consistent, holds⟩ := reads
  obtain ⟨pairs, checked⟩ := checked_of_checkReaderWriter linkedR linkedW ok
  exact clean linkedR linkedW consistent _ _ reader.self_mem_nodes _ writer.self_mem_nodes holds
    _ _ _ _ checked

theorem checkReaderWriter_of_reads (linkedR : Linked reader) (linkedW : Linked writer)
    (textual : Textual reader) (reads : Reads reader writer reader writer) :
    checkReaderWriter reader.toJson writer.toJson = .ok [] := by
  obtain ⟨violations, ok⟩ := checkReaderWriter_total linkedR linkedW textual
  rw [ok, eq_nil_of_reads linkedR linkedW reads ok]

end

/-- Of two schemas in canonical form that define each name once, a check that gives a result finds
nothing exactly if the reader reads the writer, and it gives a result if the reader's aliases are
texts. -/
theorem finds_nothing_iff_reads {schemaR schemaW : Json} {r w : Schema.Canonical}
    (okR : Schema.canonicalize schemaR = .ok r) (okW : Schema.canonicalize schemaW = .ok w)
    (onceR : r.form.definedNames.Nodup) (onceW : w.form.definedNames.Nodup) :
    (∀ violations, checkReaderWriter r.value w.value = .ok violations →
      (violations = [] ↔ Reads r.form w.form r.form w.form)) ∧
    (Textual r.form → ∃ violations, checkReaderWriter r.value w.value = .ok violations) := by
  have linkedR := linked_of_canonicalize okR
  have linkedW := linked_of_canonicalize okW
  constructor
  · intro violations ok
    constructor
    · rintro rfl
      exact reads_of_checkReaderWriter linkedR linkedW onceR onceW ok
    · intro reads
      exact eq_nil_of_reads linkedR linkedW reads ok
  · exact checkReaderWriter_total linkedR linkedW

/-- The value of the linked record with a further field, which has a default. -/
def labelledValue : Json :=
  .obj [("type", .str "record"), ("name", .str "Node"), ("namespace", .str "list"),
    ("fields", .arr [
      .obj [("name", .str "label"), ("type", .str "string"), ("default", .str "")],
      .obj [("name", .str "next"), ("type", .arr [.str "null", .str "Node"])]])]

/-- The canonical form of that record. -/
def labelledForm : Form :=
  .record false "list.Node" [] [(⟨.str "label", some (.str ""), [], none⟩, .name "string"),
    (⟨.str "next", none, [], none⟩, .union [.name "null", .name "list.Node"])]

theorem labelled_reads_linked :
    labelledForm.definedNames.Nodup ∧ linkedForm.definedNames.Nodup ∧
      checkReaderWriter labelledForm.toJson linkedForm.toJson = .ok [] ∧
      Reads labelledForm linkedForm labelledForm linkedForm := by
  have once : labelledForm.definedNames.Nodup := by decide
  have onceW : linkedForm.definedNames.Nodup := by decide
  have okR : Schema.canonicalize labelledValue =
      .ok ⟨labelledForm, labelledValue.encode Json.spaced⟩ :=
    canonicalize_eq (Schema.submitted_value (Json.readable_of_exact (by decide)) rfl rfl) rfl rfl
  have okW : Schema.canonicalize linkedValue =
      .ok ⟨linkedForm, linkedValue.encode Json.spaced⟩ :=
    canonicalize_eq (Schema.submitted_value (Json.readable_of_exact (by decide)) rfl rfl) rfl rfl
  have checked : checkReaderWriter labelledForm.toJson linkedForm.toJson = .ok [] := rfl
  obtain ⟨verdict, -⟩ := finds_nothing_iff_reads okR okW once onceW
  exact ⟨once, onceW, checked, (verdict [] checked).1 rfl⟩

/-! ## Names that are defined twice -/

/-- The value of a record with one field. -/
def boxValue (name field : String) (type : Json) : Json :=
  .obj [("type", .str "record"), ("name", .str name),
    ("fields", .arr [.obj [("name", .str field), ("type", type)]])]

/-- A record with one field. -/
def box (name field : String) (type : Form) : Form :=
  .record false name [] [(⟨.str field, none, [], none⟩, type)]

/-- The value of a union of which two branches define a name, the second one for a box of a given
type. -/
def twiceValue (type : String) : Json :=
  .arr [boxValue "A" "x" (.str "int"), boxValue "B" "y" (boxValue "A" "x" (.str type))]

/-- That union. -/
def twice (type : String) : Form :=
  .union [box "A" "x" (.name "int"), box "B" "y" (box "A" "x" (.name type))]

/-- What two boxes have in common that can be read one as the other. -/
theorem reads_box {reader writer : Form} {n m field : String} {r w : Form}
    (h : Reads reader writer (box n field r) (box m field w)) :
    NamesAgree n [] m ∧ Reads reader writer r w := by
  have found : fieldNamed [(⟨.str field, none, [], none⟩, w)] (.str field) =
      some (⟨.str field, none, [], none⟩, w) := List.find?_cons_of_pos (Json.same_refl rfl)
  have named : counterpart? [(⟨.str field, none, [], none⟩, w)] ⟨.str field, none, [], none⟩ =
      some (⟨.str field, none, [], none⟩, w) := by
    unfold counterpart?
    rw [found]
    rfl
  cases (reads_iff reader writer _ _).1 h with
  | plain _ _ matched =>
    cases matched with
    | primitive _ none => cases none
    | promotion none => cases none
    | record names read => exact ⟨names, read.found _ List.mem_cons_self _ named⟩

/-- A check of two schemas that define a name twice may find nothing, though the reader does not
read the writer. -/
theorem passes_unread :
    Schema.canonicalize (twiceValue "string") =
        .ok ⟨twice "string", (twiceValue "string").encode Json.spaced⟩ ∧
      Schema.canonicalize (twiceValue "boolean") =
        .ok ⟨twice "boolean", (twiceValue "boolean").encode Json.spaced⟩ ∧
      checkReaderWriter (twice "string").toJson (twice "boolean").toJson = .ok [] ∧
      ¬ Reads (twice "string") (twice "boolean") (twice "string") (twice "boolean") := by
  have readable : ∀ type ∈ ["string", "boolean"],
      Schema.submitted (twiceValue type) =
        .ok ((twiceValue type).encode Json.spaced, twiceValue type) := by
    intro type mem
    refine Schema.submitted_value (Json.readable_of_exact ?_) rfl rfl
    revert type
    decide
  refine ⟨canonicalize_eq (readable _ (by simp)) rfl rfl,
    canonicalize_eq (readable _ (by simp)) rfl rfl, rfl, fun h => ?_⟩
  have outer : Reads (twice "string") (twice "boolean") (twice "string")
      (box "B" "y" (box "A" "x" (.name "boolean"))) := by
    cases (reads_iff _ _ _ _).1 h with
    | every each => exact each _ (List.mem_cons_of_mem _ List.mem_cons_self)
    | some single => exact absurd ⟨_, rfl⟩ single
    | plain _ single => exact absurd ⟨_, rfl⟩ single
  have inner : Reads (twice "string") (twice "boolean") (.name "string") (.name "boolean") := by
    cases (reads_iff _ _ _ _).1 outer with
    | plain single => exact absurd ⟨_, rfl⟩ single
    | some _ mem one =>
      rcases List.mem_cons.1 mem with rfl | mem
      · cases (reads_iff _ _ _ _).1 one with
        | plain _ _ matched =>
          cases matched with
          | primitive _ none => cases none
          | promotion none => cases none
          | record names =>
            have differ : ¬ NamesAgree "A" [] "B" := by
              rintro (same | listed | ⟨a, listed, -⟩)
              · exact absurd same (by decide)
              · cases listed
              · cases listed
            exact absurd names differ
      · obtain rfl := List.mem_singleton.1 mem
        exact (reads_box (reads_box one).2).2
  cases (reads_iff _ _ _ _).1 inner with
  | plain _ _ matched =>
    cases matched with
    | primitive _ reads writes =>
      cases reads
      exact absurd writes (by decide)
    | promotion reads writes promoted =>
      cases reads
      cases writes
      exact absurd promoted (by decide)

end AvroRegistry.Compatibility
