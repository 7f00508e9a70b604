import AvroRegistry.Proofs.Compatibility.Branchwise
import AvroRegistry.Proofs.Compatibility.Edited
import Mathlib.Data.List.Find

/-!
# Schemas whose types and fields are called otherwise

`recode` gives the named types of a schema other names, wherever they are defined or referred to,
and other aliases, and the fields of its records other heads. Definitions and references still
belong together if different names stay different (`resolve_recode`). If moreover every type and
every field can still be found under what it was called before, by its name or by an alias, the
recoded schema reads the original (`recode_reads`).
-/

namespace AvroRegistry.Compatibility

open Schema (Form FieldHead)

/-- What the named types and the fields of a schema are called instead, and by which aliases. -/
structure Recoding where
  /-- The name of a type. -/
  name : String → String
  /-- The aliases of the type of a name. -/
  aliases : String → List Json → List Json
  /-- The head of a field of the record of a name. -/
  head : String → FieldHead → FieldHead

mutual

/-- A schema in which types and fields are called otherwise. -/
def recode (k : Recoding) : Form → Form
  | .name n => .name (if Schema.isPrimitive n then n else k.name n)
  | .annotated p attributes => .annotated p attributes
  | .union branches => .union (recodeBranches k branches)
  | .array items => .array (recode k items)
  | .map values => .map (recode k values)
  | .record isError full aliases fields =>
    .record isError (k.name full) (k.aliases full aliases) (recodeFields k full fields)
  | .enumeration full aliases symbols default =>
    .enumeration (k.name full) (k.aliases full aliases) symbols default
  | .fixed full aliases size attributes =>
    .fixed (k.name full) (k.aliases full aliases) size attributes

/-- The branches of a union, recoded. -/
def recodeBranches (k : Recoding) : List Form → List Form
  | [] => []
  | branch :: rest => recode k branch :: recodeBranches k rest

/-- The fields of a record, recoded. -/
def recodeFields (k : Recoding) (full : String) :
    List (FieldHead × Form) → List (FieldHead × Form)
  | [] => []
  | (head, type) :: rest => (k.head full head, recode k type) :: recodeFields k full rest

end

section

variable (k : Recoding)

/-- A field of the record of a name, recoded. -/
def recodeField (full : String) (f : FieldHead × Form) : FieldHead × Form :=
  (k.head full f.1, recode k f.2)

theorem recode_union (branches : List Form) :
    recode k (.union branches) = .union (branches.map (recode k)) := by
  have each : ∀ branches, recodeBranches k branches = branches.map (recode k) := by
    intro branches
    induction branches with
    | nil => rfl
    | cons branch rest ih => rw [recodeBranches, ih, List.map_cons]
  rw [recode, each]

theorem recode_record (isError : Bool) (full : String) (aliases : List Json)
    (fields : List (FieldHead × Form)) :
    recode k (.record isError full aliases fields) =
      .record isError (k.name full) (k.aliases full aliases)
        (fields.map (recodeField k full)) := by
  have each : ∀ fields, recodeFields k full fields = fields.map (recodeField k full) := by
    intro fields
    induction fields with
    | nil => rfl
    | cons f rest ih =>
      obtain ⟨head, type⟩ := f
      rw [recodeFields, ih, List.map_cons]
      rfl
  rw [recode, each]

theorem definedName?_recode (a : Form) :
    (recode k a).definedName? = a.definedName?.map k.name := by
  cases a with
  | union branches =>
    rw [recode_union]
    rfl
  | record isError full aliases fields =>
    rw [recode_record]
    rfl
  | _ => rfl

/-- The types of a recoded schema are those of the schema, recoded. -/
theorem nodes_recode (form : Form) : (recode k form).nodes = form.nodes.map (recode k) := by
  induction form using Form.induct with
  | name n => rfl
  | annotated p attributes => rfl
  | enumeration full aliases symbols default => rfl
  | fixed full aliases size attributes => rfl
  | array items ih =>
    show Form.array _ :: (recode k items).nodes = _
    rw [ih]
    rfl
  | map values ih =>
    show Form.map _ :: (recode k values).nodes = _
    rw [ih]
    rfl
  | union branches ih =>
    rw [recode_union, Form.nodes_union, Form.nodes_union, List.map_cons, recode_union,
      List.flatMap_map, List.map_flatMap]
    congr 1
    exact List.flatMap_congr ih
  | record isError full aliases fields ih =>
    rw [recode_record, Form.nodes_record, Form.nodes_record, List.map_cons, recode_record,
      List.flatMap_map, List.map_flatMap]
    congr 1
    exact List.flatMap_congr ih

end

/-! ## Recodings that a schema can be read after -/

/-- A recoding of a schema after which everything can still be found: different names stay
different, and types and fields are found under what they were called before. -/
structure Recoding.Findable (k : Recoding) (form : Form) : Prop where
  apart : ∀ m ∈ form.definedNames, ∀ n ∈ form.definedNames, k.name m = k.name n → m = n
  other : ∀ n ∈ form.definedNames, Schema.isPrimitive n = false →
    Schema.isPrimitive (k.name n) = false
  named : ∀ n aliases, NamesAgree (k.name n) (k.aliases n aliases) n
  texts : ∀ n aliases, (∀ a ∈ aliases, ∃ s, a = .str s) → ∀ a ∈ k.aliases n aliases, ∃ s, a = .str s
  differ : ∀ isError full aliases fields, .record isError full aliases fields ∈ form.nodes →
    Form.NamesDiffer (fields.map (recodeField k full))
  found : ∀ isError full aliases fields, .record isError full aliases fields ∈ form.nodes →
    ∀ f ∈ fields, counterpart? fields (k.head full f.1) = some f
  keys : ∀ isError full aliases fields, .record isError full aliases fields ∈ form.nodes →
    ∀ f ∈ fields, (∀ a ∈ f.1.aliases, a.isKey = true) →
      ∀ a ∈ (k.head full f.1).aliases, a.isKey = true

section

variable {k : Recoding} {form : Form} (findable : k.Findable form)

include findable

theorem definition?_recode {n : String} (mem : n ∈ form.definedNames) :
    (recode k form).definition? (k.name n) = (form.definition? n).map (recode k) := by
  unfold Form.definition?
  rw [nodes_recode, List.find?_map]
  congr 1
  refine List.find?_congr fun node inside => ?_
  show ((recode k node).definedName? == some (k.name n)) = (node.definedName? == some n)
  rw [definedName?_recode]
  cases defines : node.definedName? with
  | none => rfl
  | some m =>
    have known : m ∈ form.definedNames := List.mem_filterMap.2 ⟨node, inside, defines⟩
    rw [Option.map_some, Bool.eq_iff_iff, beq_iff_eq, beq_iff_eq, Option.some_inj, Option.some_inj]
    exact ⟨findable.apart m known n mem, congrArg k.name⟩

/-- A reference stands for what it stood for, recoded. -/
theorem resolve_recode (linked : Linked form) {w : Form} (mem : w ∈ form.nodes) :
    (recode k form).resolve (recode k w) = recode k (form.resolve w) := by
  cases w with
  | name n =>
    by_cases primitive : Schema.isPrimitive n = true
    · simp [recode, Form.resolve, primitive]
    · have known := linked.name_mem_definedNames mem (by simpa using primitive)
      have other := findable.other n known (by simpa using primitive)
      rw [recode, if_neg primitive, Form.resolve, other, if_neg Bool.false_ne_true,
        definition?_recode findable known, Form.resolve, if_neg primitive]
      cases found : form.definition? n with
      | none => simp [recode, primitive]
      | some definition => rfl
  | union branches =>
    rw [recode_union, Form.resolve, Form.resolve, recode_union]
    all_goals simp
  | record isError full aliases fields =>
    rw [recode_record, Form.resolve, Form.resolve, recode_record]
    all_goals simp
  | _ => rfl

theorem tidy_recode {a : Form} (mem : a ∈ form.nodes) (tidy : a.Tidy) : (recode k a).Tidy := by
  cases a with
  | union branches =>
    rw [recode_union]
    simpa [Form.Tidy] using tidy
  | record isError full aliases fields =>
    rw [recode_record]
    exact ⟨by simpa using tidy.1, findable.differ isError full aliases fields mem⟩
  | name n => exact trivial
  | annotated p attributes => exact tidy
  | array items => exact trivial
  | map values => exact trivial
  | enumeration full aliases symbols default => exact tidy
  | fixed full aliases size attributes => exact tidy

theorem linked_recode (linked : Linked form) : Linked (recode k form) := by
  constructor
  · intro node mem
    rw [nodes_recode] at mem
    obtain ⟨a, inside, rfl⟩ := List.mem_map.1 mem
    exact tidy_recode findable inside (linked.tidy a inside)
  · intro node mem
    rw [nodes_recode] at mem
    obtain ⟨a, inside, rfl⟩ := List.mem_map.1 mem
    have grounded := linked.grounded a inside
    rw [resolve_recode findable linked inside]
    cases stands : form.resolve a with
    | name n =>
      rw [stands] at grounded
      simpa [recode, grounded n rfl] using grounded
    | annotated p attributes =>
      rw [stands] at grounded
      exact grounded
    | union branches =>
      rw [recode_union]
      exact grounded_of_none rfl
    | record isError full aliases fields =>
      rw [recode_record]
      exact grounded_of_none rfl
    | _ => exact grounded_of_none rfl

theorem textual_recode (textual : Textual form) : Textual (recode k form) := by
  constructor
  · intro node mem
    rw [nodes_recode] at mem
    obtain ⟨a, inside, rfl⟩ := List.mem_map.1 mem
    have given := textual.types a inside
    cases a with
    | record isError full aliases fields =>
      rw [recode_record]
      exact findable.texts full aliases given
    | enumeration full aliases symbols default => exact findable.texts full aliases given
    | fixed full aliases size attributes => exact findable.texts full aliases given
    | union branches =>
      rw [recode_union]
      simp [aliasesOf]
    | _ => simp [recode, aliasesOf]
  · intro isError full aliases fields mem f listed
    rw [nodes_recode] at mem
    obtain ⟨a, inside, same⟩ := List.mem_map.1 mem
    cases a with
    | record isError' full' aliases' fields' =>
      rw [recode_record] at same
      cases same
      obtain ⟨g, field, rfl⟩ := List.mem_map.1 listed
      exact findable.keys _ _ _ _ inside g field (textual.fields _ _ _ _ inside g field)
    | union branches =>
      rw [recode_union] at same
      cases same
    | _ => cases same

/-- A recoded schema runs parallel to the original. -/
theorem parallel_recode (linked : Linked form) (sizes : SizesEqual form) :
    Parallel (recode k form) form fun r w => w ∈ form.nodes ∧ r = recode k w where
  resolved := by
    rintro _ w ⟨mem, rfl⟩
    exact ⟨Form.resolve_mem_nodes mem, resolve_recode findable linked mem⟩
  branches := by
    rintro _ branches ⟨mem, rfl⟩
    refine ⟨_, recode_union k branches, fun c listed => ⟨recode k c, ?_, ?_, rfl⟩⟩
    · exact List.mem_map_of_mem listed
    · exact Form.branch_mem_nodes mem listed
  single := by
    rintro branches w ⟨-, is⟩
    cases w with
    | union others => exact ⟨others, rfl⟩
    | record isError full aliases fields =>
      rw [recode_record] at is
      cases is
    | _ => cases is
  matched := by
    rintro _ w ⟨mem, rfl⟩ stands single
    have grounded := linked.grounded w mem
    rw [stands] at grounded
    cases w with
    | name n =>
      have primitive := grounded n rfl
      rw [recode, if_pos primitive]
      exact .primitive primitive rfl rfl
    | annotated p attributes => exact .primitive (grounded p rfl) rfl rfl
    | union branches => exact absurd ⟨branches, rfl⟩ single
    | array items => exact .array ⟨Form.items_mem_nodes mem, rfl⟩
    | map values => exact .map ⟨Form.values_mem_nodes mem, rfl⟩
    | enumeration full aliases symbols default =>
      have tidy := linked.tidy _ mem
      refine .enumeration (findable.named full aliases) (.inl fun s listed => ?_)
      exact List.any_eq_true.2
        ⟨s, listed, Json.same_refl (List.all_eq_true.1 tidy.1 s listed)⟩
    | fixed full aliases size attributes =>
      exact .fixed (findable.named full aliases) (sizes full aliases size attributes mem)
    | record isError full aliases fields =>
      have found := findable.found isError full aliases fields mem
      rw [recode_record]
      refine .record (findable.named full aliases) (.of_counterparts (fun f listed => ?_) ?_)
      · obtain ⟨g, field, rfl⟩ := List.mem_map.1 listed
        exact .inl ⟨g, found g field, Form.type_mem_nodes mem field, rfl⟩
      · exact fun g listed => .inl ⟨_, List.mem_map_of_mem listed, found g listed⟩

/-- A recoded schema reads the original. -/
theorem recode_reads (linked : Linked form) (sizes : SizesEqual form) :
    Reads (recode k form) form (recode k form) form :=
  (parallel_recode findable linked sizes).reads ⟨form.self_mem_nodes, rfl⟩

end

end AvroRegistry.Compatibility
