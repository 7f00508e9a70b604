import AvroRegistry.Proofs.Compatibility.Consulted
import AvroRegistry.Proofs.Compatibility.Textual
import AvroRegistry.Proofs.Json.Sameness

/-!
# Every schema reads itself

A canonical schema can be read with itself: every type covers itself, and a union of the reader
covers whatever one of its branches covers, which is how the branches of a union find themselves
again among all branches of that union. `Covers` agrees with the rules of resolution
(`covers_consistent`), so a check of a schema against itself finds nothing in whatever order it goes
through the branches and whatever pairs it has met (`reads_itself`).

Only two things are needed of a schema: aliases that are texts, because otherwise the comparison of
names breaks down, and sizes that are numbers, because a size that is NaN differs from itself. A
name may well be defined twice.
-/

namespace AvroRegistry.Compatibility

open Schema (Form FieldHead)

/-! ## What a type stands for -/

theorem resolve_resolve (form node : Form) :
    form.resolve (form.resolve node) = form.resolve node := by
  cases node with
  | name n =>
    cases primitive : Schema.isPrimitive n with
    | true => simp [Form.resolve, primitive]
    | false =>
      cases found : form.definition? n with
      | none => simp [Form.resolve, primitive, found]
      | some definition =>
        obtain ⟨-, defines⟩ := Form.definition?_eq_some found
        have stands : form.resolve (.name n) = definition := by
          simp [Form.resolve, primitive, found]
        rw [stands]
        cases definition with
        | name _ => cases defines
        | _ => rfl
  | _ => rfl

/-- Only a union stands for a union. -/
theorem eq_of_resolve_union {form node : Form} {branches : List Form}
    (stands : form.resolve node = .union branches) : node = .union branches := by
  cases node with
  | name n =>
    rw [Form.resolve] at stands
    split at stands
    · cases stands
    · cases found : form.definition? n with
      | none =>
        rw [found] at stands
        cases stands
      | some definition =>
        obtain ⟨-, defines⟩ := Form.definition?_eq_some found
        rw [found] at stands
        obtain rfl : definition = _ := stands
        cases defines
  | _ => exact stands

/-! ## Types that cover one another -/

/-- A type of a schema covers another one: both stand for the same type, or the first one is a union
with a branch that covers the second one. -/
inductive Covers (form : Form) : Form → Form → Prop where
  | same {r w : Form} (hr : r ∈ form.nodes) (hw : w ∈ form.nodes)
      (stand : form.resolve r = form.resolve w) : Covers form r w
  | branch {branches : List Form} {b w : Form} (hr : .union branches ∈ form.nodes)
      (mem : b ∈ branches) (one : Covers form b w) : Covers form (.union branches) w

section

variable {form : Form}

theorem Covers.refl {node : Form} (mem : node ∈ form.nodes) : Covers form node node :=
  .same mem mem rfl

theorem Covers.resolved {r w : Form} (covers : Covers form r w) :
    Covers form r (form.resolve w) := by
  induction covers with
  | same hr hw stand =>
    exact .same hr (Form.resolve_mem_nodes hw) (stand.trans (resolve_resolve form _).symm)
  | branch hr mem _ ih => exact .branch hr mem ih

/-- What covers a union covers its branches. -/
theorem Covers.branches {r : Form} {branches : List Form} (covers : Covers form r (.union branches))
    {c : Form} (mem : c ∈ branches) : Covers form r c := by
  generalize whole : Form.union branches = w at covers
  induction covers with
  | same hr hw stand =>
    subst whole
    obtain rfl := eq_of_resolve_union stand
    exact .branch hr mem (.refl (Form.branch_mem_nodes hr mem))
  | branch hr inside _ ih => exact .branch hr inside (ih whole)

/-! ## What covers reads -/

/-- Every size in a schema is equal to itself. -/
def SizesEqual (form : Form) : Prop :=
  ∀ full aliases size attributes, .fixed full aliases size attributes ∈ form.nodes →
    size.equal size = true

theorem fieldNamed_self {fields : List (FieldHead × Form)} (differ : Form.NamesDiffer fields)
    {f : FieldHead × Form} (mem : f ∈ fields) : fieldNamed fields f.1.name = some f := by
  have found : (fieldNamed fields f.1.name).isSome = true :=
    List.find?_isSome.2 ⟨f, mem, Json.same_refl (differ.keys f mem)⟩
  obtain ⟨g, named⟩ := Option.isSome_iff_exists.1 found
  have same : g.1.name.same f.1.name = true :=
    List.find?_some (p := fun g : FieldHead × Form => g.1.name.same f.1.name) named
  obtain rfl := eq_of_same_name differ (List.mem_of_find?_eq_some named) mem same
  exact named

theorem counterpart?_self {fields : List (FieldHead × Form)} (differ : Form.NamesDiffer fields)
    {f : FieldHead × Form} (mem : f ∈ fields) : counterpart? fields f.1 = some f := by
  rw [counterpart?, fieldNamed_self differ mem]
  rfl

/-- Fields read themselves if their types do. -/
theorem fieldsRead_self {reads : Form → Form → Prop} {fields : List (FieldHead × Form)}
    (differ : Form.NamesDiffer fields) (each : ∀ f ∈ fields, reads f.2 f.2) :
    FieldsRead reads fields fields where
  found f mem g found := by
    cases (counterpart?_self differ mem).symm.trans found
    exact each f mem
  missing f mem none := by
    cases (counterpart?_self differ mem).symm.trans none
  removed g mem := .inl ⟨g, mem, counterpart?_self differ mem⟩

/-- A type that is no union matches itself, if its parts read themselves. -/
theorem matches_self {reads : Form → Form → Prop} (sizes : SizesEqual form)
    (refl : ∀ node ∈ form.nodes, reads node node) {a : Form} (ha : a ∈ form.nodes)
    (grounded : Grounded a) (tidy : a.Tidy) (single : ¬ IsUnion a) : Matches reads a a := by
  cases a with
  | name n => exact .primitive (grounded n rfl) rfl rfl
  | annotated p attributes => exact .primitive (grounded p rfl) rfl rfl
  | union branches => exact absurd ⟨branches, rfl⟩ single
  | array items => exact .array (refl items (Form.items_mem_nodes ha))
  | map values => exact .map (refl values (Form.values_mem_nodes ha))
  | record isError full aliases fields =>
    exact .record (.inl rfl)
      (fieldsRead_self tidy.2 fun f mem => refl f.2 (Form.type_mem_nodes ha mem))
  | enumeration full aliases symbols default =>
    refine .enumeration (.inl rfl) (.inl fun s mem => ?_)
    exact List.any_eq_true.2 ⟨s, mem, Json.same_refl (List.all_eq_true.1 tidy.1 s mem)⟩
  | fixed full aliases size attributes =>
    exact .fixed (.inl rfl) (sizes full aliases size attributes ha)

/-- A type that covers another one reads it. -/
theorem covers_consistent (linked : Linked form) (sizes : SizesEqual form) :
    Consistent form form (Covers form) := by
  intro a b covers
  have written := covers.resolved
  by_cases union : IsUnion (form.resolve b)
  · obtain ⟨branches, stands⟩ := union
    rw [stands] at written ⊢
    refine .every fun c mem => ?_
    cases written with
    | same ha hw stand =>
      obtain rfl := eq_of_resolve_union stand
      exact .branch ha mem (.refl (Form.branch_mem_nodes ha mem))
    | branch hr inside one => exact (Covers.branch hr inside one).branches mem
  · cases covers with
    | same ha hb stand =>
      have hb' := Form.resolve_mem_nodes hb
      rw [stand]
      exact .plain union union
        (matches_self sizes (fun _ => .refl) hb' (linked.grounded b hb) (linked.tidy _ hb') union)
    | branch hr mem one => exact .some union mem one.resolved

/-- Data of a linked schema is read with that schema. -/
theorem reads_self (linked : Linked form) (sizes : SizesEqual form) : Reads form form form form :=
  ⟨Covers form, covers_consistent linked sizes, .refl form.self_mem_nodes⟩

theorem checkReaderWriter_self (linked : Linked form) (sizes : SizesEqual form)
    (textual : Textual form) : checkReaderWriter form.toJson form.toJson = .ok [] :=
  checkReaderWriter_of_reads linked linked textual (reads_self linked sizes)

end

/-! ## Checks of a schema against itself -/

section

variable {v : Json} {mode : Mode}

/-- What passes against itself is compatible with any number of copies. -/
theorem isCompatible_self (passes : checkReaderWriter v v = .ok []) (count : Nat) :
    isCompatible v (List.replicate count v) mode = .ok true := by
  rw [isCompatible_iff]
  intro reference mem direction _
  obtain rfl := List.eq_of_mem_replicate (mem_of_consulted mem)
  cases direction
  · exact passes
  · exact passes

end

/-- The sizes in a schema without NaN are equal to themselves. -/
theorem sizesEqual_of_canonicalize {schema v : Json} {raw : String} {c : Schema.Canonical}
    (given : Schema.submitted schema = .ok (raw, v)) (ok : Schema.canonicalize schema = .ok c)
    (numbers : v.Everywhere fun w => w ≠ .float .nan) : SizesEqual c.form := by
  intro full others size attributes mem
  obtain ⟨-, normalized⟩ := canonicalize_eq_ok given ok
  obtain ⟨after, made⟩ := normalize_eq normalized
  have inside := Schema.sizesAmong_parts made full others size attributes mem
  have keyed : size.Everywhere Json.Keyed := fun w part =>
    Json.keyed_of_plain ((Schema.submitted_plain given).part inside w part)
  exact Json.equal_iff.2 ⟨numbers size inside, Json.same_self keyed⟩

/-- A schema in canonical form reads itself, and is compatible with any number of copies of itself
under every mode. -/
theorem reads_itself {schema v : Json} {raw : String} {c : Schema.Canonical}
    (given : Schema.submitted schema = .ok (raw, v)) (ok : Schema.canonicalize schema = .ok c)
    (numbers : v.Everywhere fun w => w ≠ .float .nan)
    (aliases : ∀ members ∈ Schema.objects v, Schema.TextAliases members) :
    checkReaderWriter c.value c.value = .ok [] ∧
      ∀ mode count, isCompatible c.value (List.replicate count c.value) mode = .ok true := by
  have textual := textual_of_canonicalize given ok aliases
  have sizes := sizesEqual_of_canonicalize given ok numbers
  have passes := checkReaderWriter_self (linked_of_canonicalize ok) sizes textual
  exact ⟨passes, fun mode count => isCompatible_self passes count⟩

/-- A union at the top that defines a name twice reads itself. -/
theorem twice_reads_itself :
    checkReaderWriter (twice "boolean").toJson (twice "boolean").toJson = .ok [] ∧
      ∀ mode count, isCompatible (twice "boolean").toJson
        (List.replicate count (twice "boolean").toJson) mode = .ok true := by
  have given : Schema.submitted (twiceValue "boolean") =
      .ok ((twiceValue "boolean").encode Json.spaced, twiceValue "boolean") :=
    Schema.submitted_value (Json.readable_of_exact (by decide)) rfl rfl
  have numbers : ∀ w ∈ (twiceValue "boolean").parts, w ≠ .float .nan := by decide
  have none : ∀ members ∈ Schema.objects (twiceValue "boolean"),
      Json.lookup "aliases" members = none := by decide
  refine reads_itself given (canonicalize_eq given rfl rfl) numbers fun members mem => ?_
  exact Schema.textAliases_of_none (none members mem)

end AvroRegistry.Compatibility
