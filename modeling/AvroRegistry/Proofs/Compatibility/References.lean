import AvroRegistry.Proofs.Compatibility.Collected
import AvroRegistry.Proofs.Schema.Closed
import AvroRegistry.Proofs.Schema.Submitted

/-!
# References of canonical schemas

What accepting a schema means for the names in it. On a schema without marks of processed values,
normalizing meets no unknown name and resolves every reference by the rule that accepting follows;
and a canonical schema made of it is closed: its references are to definitions further to the left,
and the names collected from it, by which schemas are compared, hold every one of them.
-/

namespace AvroRegistry

namespace Json

mutual

/-- Whether a key occurs in a value, at whatever depth. -/
def mentions (key : String) : Json → Bool
  | arr items => itemsMention key items
  | obj members => membersMention key members
  | _ => false

/-- Whether a key occurs in a value of a list. -/
def itemsMention (key : String) : List Json → Bool
  | [] => false
  | v :: rest => mentions key v || itemsMention key rest

/-- Whether a key occurs among members or in their values. -/
def membersMention (key : String) : List (String × Json) → Bool
  | [] => false
  | (k, v) :: rest => k == key || mentions key v || membersMention key rest

end

theorem mentions_item {key : String} {items : List Json}
    (absent : (arr items).mentions key = false) : ∀ v ∈ items, v.mentions key = false := by
  rw [mentions] at absent
  induction items with
  | nil => simp
  | cons first rest ih =>
    rw [itemsMention, Bool.or_eq_false_iff] at absent
    intro v mem
    rcases List.mem_cons.1 mem with rfl | later
    · exact absent.1
    · exact ih absent.2 v later

theorem lookup_of_not_mentions {key : String} {members : List (String × Json)}
    (absent : (obj members).mentions key = false) : lookup key members = none := by
  rw [mentions] at absent
  induction members with
  | nil => rfl
  | cons m rest ih =>
    obtain ⟨k, v⟩ := m
    rw [membersMention, Bool.or_eq_false_iff, Bool.or_eq_false_iff, beq_eq_false_iff_ne] at absent
    rw [lookup_cons, if_neg absent.1.1]
    exact ih absent.2

end Json

namespace Schema

/-- A value in which the mark does not occur at all is unmarked. -/
theorem unmarked_of_not_mentions (v : Json) :
    v.mentions processedMark = false → Unmarked v := by
  induction v using Json.induct with
  | step v ih =>
    intro absent
    cases v with
    | arr items =>
      exact .union fun b mem => ih b (Json.sizeOf_item mem) (Json.mentions_item absent b mem)
    | obj members => exact .object (Json.lookup_of_not_mentions absent)
    | _ => exact .word (fun _ => nofun) (fun _ => nofun)

end Schema

namespace Compatibility

open Schema

/-- A canonical form in which every reference can be followed. -/
structure Closed (form : Form) : Prop where
  /-- A reference is to a name that is defined further to the left. -/
  definedBefore : ∀ before n after, form.nodes = before ++ .name n :: after →
    isPrimitive n = false → ∃ d ∈ before, d.definedName? = some n
  /-- Within each schema reached from the top through unions only, a name is defined once. -/
  once : ∀ part ∈ form.parts, part.definedNames.Nodup
  /-- In a schema that is no union a name is defined once. -/
  onceInAll : (∀ branches, form ≠ .union branches) → form.definedNames.Nodup
  /-- No union is empty. -/
  unions : ∀ branches, .union branches ∈ form.nodes → branches ≠ []
  /-- A record has fields, and no two of them have one name. -/
  records : ∀ isError full aliases fields, .record isError full aliases fields ∈ form.nodes →
    fields ≠ [] ∧ Form.NamesDiffer fields
  /-- The collected names hold the definition of every reference. -/
  collected : ∃ names, namesOf form.toJson = .ok names ∧
    ∀ n, .name n ∈ form.nodes → isPrimitive n = false →
      ∃ d ∈ form.nodes, d.definedName? = some n ∧ resolveIn names (.str n) = d.toJson

/-- A form that normalizing builds with nothing defined before is closed, if each of its parts
defines a name once. -/
theorem closed_of_built {form : Form} {after : List String} (built : Built [] form after)
    (once : form.DefinesOnce) : Closed form where
  definedBefore before n after split named := by
    rcases built.inScope.defined_before split named with outside | inside
    · exact absurd outside List.not_mem_nil
    · exact inside
  once := once
  onceInAll single := by
    apply once form
    rw [Form.parts_eq_self single]
    exact List.mem_singleton_self form
  unions branches mem := built.tidy _ mem
  records isError full aliases fields mem := built.tidy _ mem
  collected := by
    refine ⟨_, namesOf_toJson built.tidy, fun n mem named => ?_⟩
    obtain ⟨before, after, split⟩ := List.append_of_mem mem
    have defined : ∃ d ∈ form.nodes, d.definedName? = some n := by
      rcases built.inScope.defined_before split named with outside | ⟨d, inside, defines⟩
      · exact absurd outside List.not_mem_nil
      · refine ⟨d, ?_, defines⟩
        rw [split]
        exact List.mem_append_left _ inside
    obtain ⟨d, mem, defines⟩ := defined
    obtain ⟨definition, found⟩ := Form.exists_definition mem defines
    obtain ⟨isNode, defines⟩ := Form.definition?_eq_some found
    refine ⟨definition, isNode, defines, ?_⟩
    have resolved := resolveIn_toJson form (.name n)
    rw [Form.resolve, named, if_neg Bool.false_ne_true, found] at resolved
    exact resolved

theorem normalize_eq {v : Json} {form : Form} (ok : normalize v = .ok form) :
    ∃ after, normalizeType "" v [] = .ok (form, after) := by
  change (normalizeType "" v []).map (·.1) = _ at ok
  cases read : normalizeType "" v [] with
  | error r =>
    rw [read] at ok
    cases ok
  | ok result =>
    rw [read] at ok
    cases ok
    exact ⟨result.2, rfl⟩

theorem accept_eq {v : Json} (ok : accept v = .ok ()) :
    ∃ names, acceptTop v {} = .ok ((), names) := by
  change (acceptTop v {}).map (·.1) = _ at ok
  cases read : acceptTop v {} with
  | error r =>
    rw [read] at ok
    cases ok
  | ok result => exact ⟨result.2, rfl⟩

/-- A schema that is brought into canonical form has been accepted and normalized. -/
theorem canonicalize_eq_ok {schema v : Json} {raw : String} {c : Canonical}
    (given : submitted schema = .ok (raw, v)) (ok : canonicalize schema = .ok c) :
    accept v = .ok () ∧ normalize v = .ok c.form := by
  unfold canonicalize at ok
  rw [given] at ok
  dsimp only at ok
  cases accepted : accept v with
  | error r =>
    rw [accepted] at ok
    cases ok
  | ok u =>
    rw [accepted] at ok
    dsimp only at ok
    cases normalized : normalize v with
    | error r =>
      rw [normalized] at ok
      cases ok
    | ok form =>
      rw [normalized] at ok
      cases ok
      exact ⟨rfl, rfl⟩

/-- A schema that is accepted and normalized is brought into canonical form. -/
theorem canonicalize_eq {schema v : Json} {raw : String} {form : Form}
    (given : submitted schema = .ok (raw, v)) (accepted : accept v = .ok ())
    (normalized : normalize v = .ok form) : canonicalize schema = .ok ⟨form, raw⟩ := by
  unfold canonicalize
  rw [given]
  dsimp only
  rw [accepted]
  dsimp only
  rw [normalized]

/-- Accepting and normalizing resolve names alike. On a schema that is accepted, normalizing meets
no unknown name and comes to direct types only, so that neither a name as it stands nor a schema in
the place of a type is ever looked at; and what is brought into canonical form is closed. -/
theorem names_resolved_alike {v : Json} (unmarked : v.mentions processedMark = false) :
    (accept v = .ok () →
      (∀ n, normalize v ≠ .error (.diagnosis (.unresolved n))) ∧
        ∀ space defined w, Visits "" [] v space defined w → Direct space defined w) ∧
    ∀ schema raw c, submitted schema = .ok (raw, v) → canonicalize schema = .ok c →
      Closed c.form := by
  have plain := unmarked_of_not_mentions v unmarked
  constructor
  · intro accepted
    obtain ⟨names, accepted⟩ := accept_eq accepted
    have clear := (top_agrees v plain accepted).2
    refine ⟨fun n failed => ?_, clear⟩
    have unknown : Unresolved (normalizeType "" v []) := by
      refine ⟨n, ?_⟩
      change (normalizeType "" v []).map (·.1) = _ at failed
      cases read : normalizeType "" v [] with
      | ok result =>
        rw [read] at failed
        cases failed
      | error r =>
        rw [read] at failed
        cases failed
        rfl
    obtain ⟨space, defined, w, visits, indirect⟩ := unresolved_visits v unknown
    exact indirect (clear space defined w visits)
  · intro schema raw c given ok
    obtain ⟨accepted, normalized⟩ := canonicalize_eq_ok given ok
    obtain ⟨names, accepted⟩ := accept_eq accepted
    obtain ⟨after, normalized⟩ := normalize_eq normalized
    exact closed_of_built (normalizeType_built v normalized)
      ((top_agrees v plain accepted).1 c.form after normalized).2

/-- The value of a record in a namespace whose one field refers back to it. -/
def linkedValue : Json :=
  .obj [("type", .str "record"), ("name", .str "Node"), ("namespace", .str "list"),
    ("fields", .arr [.obj [("name", .str "next"), ("type", .arr [.str "null", .str "Node"])]])]

/-- The canonical form of that record. -/
def linkedForm : Form :=
  .record false "list.Node" [] [(⟨.str "next", none, [], none⟩,
    .union [.name "null", .name "list.Node"])]

theorem linked_names_resolved_alike :
    linkedValue.mentions processedMark = false ∧ accept linkedValue = .ok () ∧
      (∀ space defined w, Visits "" [] linkedValue space defined w → Direct space defined w) ∧
      Closed linkedForm := by
  have unmarked : linkedValue.mentions processedMark = false := by decide
  have accepted : accept linkedValue = .ok () := rfl
  obtain ⟨walks, closed⟩ := names_resolved_alike unmarked
  have readable := Json.readable_of_exact (v := linkedValue) (by decide)
  have given := submitted_value readable rfl rfl
  exact ⟨unmarked, accepted, (walks accepted).2,
    closed linkedValue (linkedValue.encode Json.spaced)
      ⟨linkedForm, linkedValue.encode Json.spaced⟩ given (canonicalize_eq given accepted rfl)⟩

end Compatibility

end AvroRegistry
