import AvroRegistry.Proofs.Registry.Parsed
import AvroRegistry.Proofs.Registry.Registering
import AvroRegistry.Proofs.Schema.Stable

/-!
# Submitting a canonical text again

What a registry stores of a schema is its canonical text. Submitted again, it gives the same text
and the same fingerprint exactly when the canonical form is stable (`resubmitted_iff_stable`), and a
registry answers it with the id that the schema has. Two kinds of schemas have forms that are not
stable. A type outside of all namespaces inside a type of a namespace has a full name without a dot,
which moves into the namespace when it is read again; and a default that a union let through because
a branch was written as an object does not fit the bare name in its place.
-/

namespace AvroRegistry

open Json (Everywhere Plain arranged compact)

namespace Schema

/-! ## Texts of forms -/

section

variable {schema v : Json} {raw : String} {c again : Canonical}

/-- A canonical text that is submitted stands for the value of the form, with its members in the
order of the text. -/
theorem submitted_text (ok : canonicalize schema = .ok c) :
    submitted (.str c.text) = .ok (c.text, c.form.ordered) :=
  submitted_str (decode_text ok (Canonical.numbersReadBack ok))

/-- Forms have one text if they have one value. -/
theorem text_eq_iff (ok : canonicalize schema = .ok c)
    (again_ : canonicalize (.str c.text) = .ok again) :
    again.text = c.text ↔ again.form.ordered = c.form.ordered := by
  constructor
  · intro same
    have read := decode_text ok (Canonical.numbersReadBack ok)
    have reread := decode_text again_ (Canonical.numbersReadBack again_)
    rw [same, read] at reread
    exact (Except.ok.inj reread).symm
  · intro same
    show canonicalText again.form.toJson = canonicalText c.form.toJson
    rw [← canonicalText_ordered, ← canonicalText_ordered, same]

theorem accept_of_top {names : Names} (ok : acceptTop v {} = .ok ((), names)) :
    accept v = .ok () := by
  show (acceptTop v {}).map (·.1) = _
  rw [ok]
  rfl

theorem normalize_of_type {form : Form} {after : List String}
    (ok : normalizeType "" v [] = .ok (form, after)) : normalize v = .ok form := by
  show (normalizeType "" v []).map (·.1) = _
  rw [ok]
  rfl

/-! ## Once and again -/

/-- If the names stand, a canonical text that is accepted gives itself. -/
theorem text_again (given : submitted schema = .ok (raw, v)) (ok : canonicalize schema = .ok c)
    (stand : c.form.NamesStand "") (again_ : canonicalize (.str c.text) = .ok again) :
    again.text = c.text := by
  obtain ⟨-, normalized⟩ := Compatibility.canonicalize_eq_ok given ok
  obtain ⟨after, normalized⟩ := Compatibility.normalize_eq normalized
  obtain ⟨-, renormalized⟩ := Compatibility.canonicalize_eq_ok (submitted_text ok) again_
  obtain ⟨after', renormalized⟩ := Compatibility.normalize_eq renormalized
  obtain ⟨form, made, same⟩ := normalizeType_again normalized (submitted_plain given)
    (normalizeType_built v normalized).tidy stand
  rw [made] at renormalized
  cases renormalized
  exact (text_eq_iff ok again_).2 same

/-- A stable form is accepted and normalized again. -/
theorem canonicalize_text (given : submitted schema = .ok (raw, v))
    (ok : canonicalize schema = .ok c) (unmarked : Unmarked v) (stable : c.form.Stable) :
    ∃ again, canonicalize (.str c.text) = .ok again := by
  obtain ⟨accepted, normalized⟩ := Compatibility.canonicalize_eq_ok given ok
  obtain ⟨names, accepted⟩ := Compatibility.accept_eq accepted
  obtain ⟨after, normalized⟩ := Compatibility.normalize_eq normalized
  have plain := submitted_plain given
  obtain ⟨form, made, -⟩ := normalizeType_again normalized plain
    (normalizeType_built v normalized).tidy stable.names
  have reaccepted := acceptTop_again unmarked c.form {} names after plain accepted normalized
    stable.names stable.defaults
  exact ⟨_, Compatibility.canonicalize_eq (submitted_text ok) (accept_of_top reaccepted)
    (normalize_of_type made)⟩

/-- A form whose text gives itself is stable. -/
theorem stable_of_text (given : submitted schema = .ok (raw, v)) (ok : canonicalize schema = .ok c)
    (unmarked : Unmarked v) (again_ : canonicalize (.str c.text) = .ok again)
    (same : again.text = c.text) : c.form.Stable := by
  obtain ⟨-, normalized⟩ := Compatibility.canonicalize_eq_ok given ok
  obtain ⟨after, normalized⟩ := Compatibility.normalize_eq normalized
  obtain ⟨reaccepted, renormalized⟩ :=
    Compatibility.canonicalize_eq_ok (submitted_text ok) again_
  obtain ⟨names, reaccepted⟩ := Compatibility.accept_eq reaccepted
  obtain ⟨after', renormalized⟩ := Compatibility.normalize_eq renormalized
  refine ⟨normalizeType_same normalized _ _ _ renormalized ((text_eq_iff ok again_).1 same), ?_⟩
  exact acceptTop_fits unmarked _ _ _ _ _ (submitted_plain given) normalized reaccepted

end

/-! ## Values read back -/

/-- The value of a field with a name and a type only. -/
theorem orderedField_bare (name : String) (type : Form) :
    orderedField (⟨.str name, none, [], none⟩, type) =
      .obj [("name", .str name), ("type", type.ordered)] := by
  rw [orderedField_eq, readBack_eq (.refl _) (keys_fieldMembers _ _)
    (by simp [fieldMembers, optional, aliasMember])]
  rfl

/-- The value of a record of one field. -/
theorem ordered_oneField (full : String) (head : FieldHead) (type : Form) :
    (Form.record false full [] [(head, type)]).ordered =
      .obj [("fields", .arr [orderedField (head, type)]), ("name", .str full),
        ("type", .str "record")] := by
  have perm : (recordMembers false full [] [(head, type)]).Perm
      [("fields", .arr [head.toJson type.toJson]), ("name", .str full), ("type", .str "record")] :=
    (List.reverse_perm _).symm
  rw [readBack_record, readBack_eq perm (keys_recordMembers _ _ _ _) (by simp)]
  rfl

end Schema

/-! ## In a registry -/

namespace Registry

section

variable {r r' : Registry} {scope : Scope} {candidate : Schema.Canonical} {e : StoredSchema}

theorem canonicalOf_of_canonicalize {text : String}
    (ok : Schema.canonicalize (.str text) = .ok candidate) :
    canonicalOf (.str text) = .ok candidate := by
  unfold canonicalOf
  rw [ok]

/-- Enrolling a schema that is stored already gives its id, if it gives one. -/
theorem enroll_id {id : Int}
    (known : r.schemas.withFingerprint? (.str candidate.fingerprint) = some e)
    (enrolled : (enroll scope candidate).outcome r = (.ok id, r')) : id = e.id := by
  have put : (onSchemas (Schemas.put (.str candidate.text) (.str candidate.raw)
      (.str candidate.fingerprint))).outcome r = (.ok e.id, r) := put_known candidate.raw known
  rw [enroll_eq, Step.bind_of_ok put, Step.outcome_bind] at enrolled
  split at enrolled
  · cases enrolled
    rfl
  · cases enrolled

/-- So does registering a schema whose fingerprint, if it is one, is known. -/
theorem register_id {subject schema : Json} {part : Argument Part} {id : Int}
    (known : ∀ candidate, canonicalOf schema = .ok candidate →
      r.schemas.withFingerprint? (.str candidate.fingerprint) = some e)
    (registered : (register subject part schema).outcome r = (.ok id, r')) : id = e.id := by
  rcases register_cases r subject part schema with ⟨failure, failed⟩ |
    ⟨scope, candidate, -, accepted, ⟨info, live, found⟩ | ⟨-, enrolled⟩⟩
  · rw [registered] at failed
    cases failed
  · rw [live?_of_known (known candidate accepted), Option.map_eq_some_iff] at live
    obtain ⟨version, -, rfl⟩ := live
    rw [registered] at found
    cases found
    rfl
  · exact enroll_id (known candidate accepted) (enrolled ▸ registered)

end

/-- The canonical text of a schema, submitted as a schema. If the full names in the form stand, what
it gives has that text and that fingerprint, and registering it gives the id under which the text is
stored. If the schema has no mark of a processed value, the text gives itself if and only if the
form is stable, and then a scope in which the text is live gives its id and stays as it is. -/
theorem resubmitted_iff_stable {schema v : Json} {raw : String} {c : Schema.Canonical}
    (given : Schema.submitted schema = .ok (raw, v)) (ok : Schema.canonicalize schema = .ok c) :
    (c.form.NamesStand "" →
      (∀ again, Schema.canonicalize (.str c.text) = .ok again →
        again.text = c.text ∧ again.fingerprint = c.fingerprint) ∧
      ∀ (r r' : Registry) (e : StoredSchema) (subject : Json) (part : Argument Part) (id : Int),
        r.schemas.withFingerprint? (.str c.fingerprint) = some e →
          (register subject part (.str c.text)).outcome r = (.ok id, r') → id = e.id) ∧
    (Schema.Unmarked v →
      (c.form.Stable ↔ ∃ again, Schema.canonicalize (.str c.text) = .ok again ∧
        again.text = c.text ∧ again.fingerprint = c.fingerprint) ∧
      (c.form.Stable → ∀ (r : Registry) (subject : Json) (part : Argument Part) (scope : Scope)
        (info : SchemaInfo), scopeOf subject part = .ok scope →
          r.live? scope c.fingerprint = some info →
            (register subject part (.str c.text)).outcome r = (.ok info.schema.id, r))) := by
  have kept : c.form.NamesStand "" → ∀ again, Schema.canonicalize (.str c.text) = .ok again →
      again.text = c.text ∧ again.fingerprint = c.fingerprint := by
    intro stand again again_
    have same := Schema.text_again given ok stand again_
    exact ⟨same, congrArg Schema.fingerprint same⟩
  refine ⟨fun stand => ⟨kept stand, ?_⟩, fun unmarked => ⟨⟨fun stable => ?_, ?_⟩, ?_⟩⟩
  · intro r r' e subject part id known registered
    refine register_id (fun candidate accepted => ?_) registered
    rw [(kept stand candidate (canonicalize_of_canonicalOf accepted)).2, known]
  · obtain ⟨again, again_⟩ := Schema.canonicalize_text given ok unmarked stable
    exact ⟨again, again_, kept stable.names again again_⟩
  · rintro ⟨again, again_, same, -⟩
    exact Schema.stable_of_text given ok unmarked again_ same
  · intro stable r subject part scope info placed live
    obtain ⟨again, again_⟩ := Schema.canonicalize_text given ok unmarked stable
    refine register_live placed (canonicalOf_of_canonicalize again_) ?_
    rw [(kept stable.names again again_).2, live]

/-- An order with a state in the namespace around it, and with another order if it has one. -/
def orderValue : Json :=
  .obj [("type", .str "record"), ("name", .str "Order"), ("namespace", .str "shop"),
    ("doc", .str "What was bought"),
    ("fields", .arr [
      .obj [("name", .str "state"), ("default", .str "SHUT"),
        ("type", .obj [("type", .str "enum"), ("name", .str "State"), ("default", .str "OPEN"),
          ("symbols", .arr [.str "OPEN", .str "SHUT"])])],
      .obj [("name", .str "before"), ("type", .arr [.str "null", .str "Order"]),
        ("default", .null)]])]

/-- Its canonical form. -/
def order : Schema.Form :=
  .record false "shop.Order" [] [
    (⟨.str "state", some (.str "SHUT"), [], none⟩,
      .enumeration "shop.State" [] [.str "OPEN", .str "SHUT"] (some (.str "OPEN"))),
    (⟨.str "before", some .null, [], none⟩, .union [.name "null", .name "shop.Order"])]

theorem order_stable : order.Stable := by
  have state : Schema.qualify "shop.State" (Schema.spaceOf "shop.Order") = "shop.State" := by decide
  refine ⟨⟨by decide, state, ⟨trivial, trivial, trivial⟩, trivial⟩, ?_,
    ⟨?_, trivial, trivial, trivial⟩, trivial⟩
  · rintro d ⟨⟩
    rfl
  · rintro d ⟨⟩
    rfl

/-- The text of an order gives itself, and a scope in which it is live keeps it. -/
theorem order_resubmitted :
    ∃ c : Schema.Canonical, Schema.canonicalize orderValue = .ok c ∧ c.form = order ∧
      (∃ again, Schema.canonicalize (.str c.text) = .ok again ∧ again.text = c.text ∧
        again.fingerprint = c.fingerprint) ∧
      ∀ (r : Registry) (subject : Json) (part : Argument Part) (scope : Scope) (info : SchemaInfo),
        scopeOf subject part = .ok scope → r.live? scope c.fingerprint = some info →
          (register subject part (.str c.text)).outcome r = (.ok info.schema.id, r) := by
  have given : Schema.submitted orderValue = .ok (orderValue.encode Json.spaced, orderValue) :=
    Schema.submitted_value (Json.readable_of_exact (by decide)) rfl rfl
  have ok : Schema.canonicalize orderValue = .ok ⟨order, orderValue.encode Json.spaced⟩ :=
    Compatibility.canonicalize_eq given rfl rfl
  have unmarked : Schema.Unmarked orderValue := Schema.unmarked_of_not_mentions _ (by decide)
  obtain ⟨-, stable⟩ := resubmitted_iff_stable given ok
  obtain ⟨restored, kept⟩ := stable unmarked
  exact ⟨_, ok, rfl, restored.1 order_stable, kept order_stable⟩

/-! ## Forms that are not stable -/

/-- A record of a namespace with a record outside of all namespaces in a field. -/
def outsiderValue : Json :=
  .obj [("type", .str "record"), ("name", .str "A"), ("namespace", .str "ns"),
    ("fields", .arr [.obj [("name", .str "x"),
      ("type", .obj [("type", .str "record"), ("name", .str "B"), ("namespace", .str ""),
        ("fields", .arr [.obj [("name", .str "y"), ("type", .str "int")]])])]])]

/-- A record `ns.A` with a record of a given full name in a field. -/
def around (full : String) : Schema.Form :=
  .record false "ns.A" [] [(⟨.str "x", none, [], none⟩,
    .record false full [] [(⟨.str "y", none, [], none⟩, .name "int")])]

theorem ordered_around (full : String) :
    (around full).ordered =
      .obj [("fields", .arr [.obj [("name", .str "x"),
        ("type", .obj [("fields", .arr [.obj [("name", .str "y"), ("type", .str "int")]]),
          ("name", .str full), ("type", .str "record")])]]),
        ("name", .str "ns.A"), ("type", .str "record")] := by
  unfold around
  rw [Schema.ordered_oneField, Schema.orderedField_bare, Schema.ordered_oneField,
    Schema.orderedField_bare]
  rfl

/-- The record outside of all namespaces moves into the namespace around it when the canonical text
is read again. -/
theorem outsider_moves :
    ∃ c again : Schema.Canonical, Schema.canonicalize outsiderValue = .ok c ∧
      Schema.canonicalize (.str c.text) = .ok again ∧ c.form = around "B" ∧
      again.form = around "ns.B" ∧ again.text ≠ c.text := by
  have given : Schema.submitted outsiderValue =
      .ok (outsiderValue.encode Json.spaced, outsiderValue) :=
    Schema.submitted_value (Json.readable_of_exact (by decide)) rfl rfl
  have ok : Schema.canonicalize outsiderValue = .ok ⟨around "B", _⟩ :=
    Compatibility.canonicalize_eq given rfl rfl
  have resubmitted := Schema.submitted_text ok
  rw [ordered_around] at resubmitted
  have again_ : Schema.canonicalize (.str _) = .ok ⟨around "ns.B", _⟩ :=
    Compatibility.canonicalize_eq resubmitted rfl rfl
  refine ⟨_, _, ok, again_, rfl, rfl, fun same => ?_⟩
  have values := (Schema.text_eq_iff ok again_).1 same
  rw [ordered_around, ordered_around] at values
  simp at values

/-- A record with a union whose branch is an object, and with a default that fits no branch by its
name. -/
def looseValue : Json :=
  .obj [("type", .str "record"), ("name", .str "A"), ("fields", .arr [
    .obj [("name", .str "x"), ("default", .null),
      ("type", .arr [.str "string", .obj [("type", .str "int")]])]])]

/-- The text of its canonical form is not accepted. -/
theorem loose_refused :
    ∃ c : Schema.Canonical, Schema.canonicalize looseValue = .ok c ∧
      ∀ again, Schema.canonicalize (.str c.text) ≠ .ok again := by
  have given : Schema.submitted looseValue = .ok (looseValue.encode Json.spaced, looseValue) :=
    Schema.submitted_value (Json.readable_of_exact (by decide)) rfl rfl
  have ok : Schema.canonicalize looseValue = .ok ⟨.record false "A" []
      [(⟨.str "x", some .null, [], none⟩, .union [.name "string", .name "int"])], _⟩ :=
    Compatibility.canonicalize_eq given rfl rfl
  refine ⟨_, ok, fun again again_ => ?_⟩
  have stand : Schema.Form.NamesStand "" (.record false "A" []
      [(⟨.str "x", some .null, [], none⟩, .union [.name "string", .name "int"])]) :=
    ⟨by decide, ⟨trivial, trivial, trivial⟩, trivial⟩
  have same := Schema.text_again given ok stand again_
  have stable := Schema.stable_of_text given ok (Schema.unmarked_of_not_mentions _ (by decide))
    again_ same
  have fits := stable.defaults.1.1 .null rfl
  cases fits

end Registry

end AvroRegistry
