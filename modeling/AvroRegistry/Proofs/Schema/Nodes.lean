import AvroRegistry.Schema.Form
import AvroRegistry.Schema.Vocabulary
import Mathlib.Data.List.Basic

/-!
# The nodes of a canonical schema

A canonical schema is a tree of types. `Form.nodes` lists all types in it, from left to right and
each before its parts, so "earlier in the schema" is "further to the left in the list". What a
schema defines, which parts of it stand for schemas of their own, and what a name in it means are
read off that list.

* `Form.induct`: induction over a schema.
* `Form.nodes_segment`: the nodes of a node are nodes, and stand together.
* `Form.resolve`: the definition that a name stands for, the first one of that name.
-/

namespace AvroRegistry.Schema.Form

/-! ## Induction -/

/-- Induction over a schema: what holds of the parts of a type holds of the type. -/
@[elab_as_elim]
theorem induct {motive : Form → Prop} (name : ∀ n, motive (name n))
    (annotated : ∀ p attributes, motive (annotated p attributes))
    (union : ∀ branches, (∀ b ∈ branches, motive b) → motive (union branches))
    (array : ∀ items, motive items → motive (array items))
    (map : ∀ values, motive values → motive (map values))
    (record : ∀ isError full aliases fields, (∀ f ∈ fields, motive f.2) →
      motive (record isError full aliases fields))
    (enumeration : ∀ full aliases symbols default,
      motive (enumeration full aliases symbols default))
    (fixed : ∀ full aliases size attributes, motive (fixed full aliases size attributes)) :
    ∀ form, motive form
  | .name n => name n
  | .annotated p attributes => annotated p attributes
  | .union branches => union branches fun b _ =>
      induct name annotated union array map record enumeration fixed b
  | .array items => array items
      (induct name annotated union array map record enumeration fixed items)
  | .map values => map values
      (induct name annotated union array map record enumeration fixed values)
  | .record isError full aliases fields => record isError full aliases fields fun f _ =>
      induct name annotated union array map record enumeration fixed f.2
  | .enumeration full aliases symbols default => enumeration full aliases symbols default
  | .fixed full aliases size attributes => fixed full aliases size attributes
termination_by form => sizeOf form
decreasing_by
  · have := List.sizeOf_lt_of_mem ‹b ∈ branches›
    simp only [Form.union.sizeOf_spec]
    omega
  · simp only [Form.array.sizeOf_spec]
    omega
  · simp only [Form.map.sizeOf_spec]
    omega
  · have := List.sizeOf_lt_of_mem ‹f ∈ fields›
    obtain ⟨head, type⟩ := f
    simp only [Form.record.sizeOf_spec, Prod.mk.sizeOf_spec] at *
    omega

/-! ## Nodes -/

mutual

/-- The types in a schema, each before its parts. -/
def nodes : Form → List Form
  | union branches => union branches :: nodesOfBranches branches
  | array items => array items :: items.nodes
  | map values => map values :: values.nodes
  | record isError full aliases fields =>
    record isError full aliases fields :: nodesOfFields fields
  | form => [form]

/-- The types in the branches of a union. -/
def nodesOfBranches : List Form → List Form
  | [] => []
  | branch :: rest => branch.nodes ++ nodesOfBranches rest

/-- The types in the fields of a record. -/
def nodesOfFields : List (FieldHead × Form) → List Form
  | [] => []
  | (_, type) :: rest => type.nodes ++ nodesOfFields rest

end

theorem nodesOfBranches_eq_flatMap (branches : List Form) :
    nodesOfBranches branches = branches.flatMap nodes := by
  induction branches with
  | nil => rfl
  | cons branch rest ih => simp [nodesOfBranches, ih]

theorem nodesOfFields_eq_flatMap (fields : List (FieldHead × Form)) :
    nodesOfFields fields = fields.flatMap fun f => f.2.nodes := by
  induction fields with
  | nil => rfl
  | cons field rest ih =>
    obtain ⟨head, type⟩ := field
    simp [nodesOfFields, ih]

theorem nodes_union (branches : List Form) :
    (union branches).nodes = union branches :: branches.flatMap nodes := by
  rw [nodes, nodesOfBranches_eq_flatMap]

theorem nodes_record (isError : Bool) (full : String) (aliases : List Json)
    (fields : List (FieldHead × Form)) :
    (record isError full aliases fields).nodes =
      record isError full aliases fields :: fields.flatMap fun f => f.2.nodes := by
  rw [nodes, nodesOfFields_eq_flatMap]

/-- The first node of a schema is the schema. -/
theorem nodes_eq_cons (form : Form) : ∃ rest, form.nodes = form :: rest := by
  cases form <;> exact ⟨_, rfl⟩

theorem self_mem_nodes (form : Form) : form ∈ form.nodes := by
  obtain ⟨rest, h⟩ := form.nodes_eq_cons
  rw [h]
  exact List.mem_cons_self

theorem branch_segment {branches : List Form} {branch : Form} (mem : branch ∈ branches) :
    branch.nodes <:+: branches.flatMap nodes := by
  rw [List.flatMap_def]
  exact List.infix_of_mem_flatten (List.mem_map_of_mem mem)

theorem type_segment {fields : List (FieldHead × Form)} {field : FieldHead × Form}
    (mem : field ∈ fields) : field.2.nodes <:+: fields.flatMap fun f => f.2.nodes := by
  rw [List.flatMap_def]
  exact List.infix_of_mem_flatten (List.mem_map.2 ⟨field, mem, rfl⟩)

/-- The nodes of a node of a schema stand together among those of the schema. -/
theorem nodes_segment {root node : Form} (mem : node ∈ root.nodes) :
    node.nodes <:+: root.nodes := by
  induction root using induct with
  | union branches ih =>
    rw [nodes_union] at mem
    rcases List.mem_cons.1 mem with rfl | deeper
    · exact List.infix_rfl
    · obtain ⟨branch, hb, hn⟩ := List.mem_flatMap.1 deeper
      rw [nodes_union]
      exact List.infix_cons ((ih branch hb hn).trans (branch_segment hb))
  | array items ih =>
    rcases List.mem_cons.1 mem with rfl | deeper
    · exact List.infix_rfl
    · exact List.infix_cons (ih deeper)
  | map values ih =>
    rcases List.mem_cons.1 mem with rfl | deeper
    · exact List.infix_rfl
    · exact List.infix_cons (ih deeper)
  | record isError full aliases fields ih =>
    rw [nodes_record] at mem
    rcases List.mem_cons.1 mem with rfl | deeper
    · exact List.infix_rfl
    · obtain ⟨field, hf, hn⟩ := List.mem_flatMap.1 deeper
      rw [nodes_record]
      exact List.infix_cons ((ih field hf hn).trans (type_segment hf))
  | _ =>
    obtain rfl : node = _ := List.mem_singleton.1 mem
    exact List.infix_rfl

/-- A node of a node of a schema is a node of the schema. -/
theorem mem_nodes_trans {root node inner : Form} (outer : node ∈ root.nodes)
    (within : inner ∈ node.nodes) : inner ∈ root.nodes :=
  (nodes_segment outer).subset within

section parts

variable {root : Form}

theorem branch_mem_nodes {branches : List Form} (node : union branches ∈ root.nodes)
    {branch : Form} (mem : branch ∈ branches) : branch ∈ root.nodes := by
  apply mem_nodes_trans node
  rw [nodes_union]
  exact List.mem_cons_of_mem _ (List.mem_flatMap.2 ⟨branch, mem, branch.self_mem_nodes⟩)

theorem items_mem_nodes {items : Form} (node : array items ∈ root.nodes) :
    items ∈ root.nodes := by
  apply mem_nodes_trans node
  rw [nodes]
  exact List.mem_cons_of_mem _ items.self_mem_nodes

theorem values_mem_nodes {values : Form} (node : map values ∈ root.nodes) :
    values ∈ root.nodes := by
  apply mem_nodes_trans node
  rw [nodes]
  exact List.mem_cons_of_mem _ values.self_mem_nodes

theorem type_mem_nodes {isError : Bool} {full : String} {aliases : List Json}
    {fields : List (FieldHead × Form)} (node : record isError full aliases fields ∈ root.nodes)
    {field : FieldHead × Form} (mem : field ∈ fields) : field.2 ∈ root.nodes := by
  apply mem_nodes_trans node
  rw [nodes_record]
  exact List.mem_cons_of_mem _ (List.mem_flatMap.2 ⟨field, mem, field.2.self_mem_nodes⟩)

end parts

/-! ## Names -/

/-- The full name that a type defines, if it is a named type. -/
def definedName? : Form → Option String
  | record _ full _ _ => some full
  | enumeration full _ _ _ => some full
  | fixed full _ _ _ => some full
  | _ => none

/-- The full names that a schema defines, in the order in which the definitions begin. -/
def definedNames (form : Form) : List String := form.nodes.filterMap definedName?

/-- The first definition of a full name in a schema. -/
def definition? (root : Form) (full : String) : Option Form :=
  root.nodes.find? fun node => node.definedName? == some full

/-- The type that a type in a schema stands for: a name that is no primitive type stands for its
definition, anything else for itself. -/
def resolve (root : Form) : Form → Form
  | name n => if isPrimitive n then name n else (root.definition? n).getD (name n)
  | form => form

/-- A definition found under a name is a node that defines the name. -/
theorem definition?_eq_some {root definition : Form} {full : String}
    (h : root.definition? full = some definition) :
    definition ∈ root.nodes ∧ definition.definedName? = some full := by
  refine ⟨List.mem_of_find?_eq_some h, ?_⟩
  have := List.find?_some h
  simpa using this

/-- A name that some node defines has a definition. -/
theorem exists_definition {root node : Form} {full : String} (mem : node ∈ root.nodes)
    (defines : node.definedName? = some full) :
    ∃ definition, root.definition? full = some definition := by
  rw [← Option.isSome_iff_exists]
  unfold definition?
  rw [List.find?_isSome]
  exact ⟨node, mem, by simp [defines]⟩

/-- What a node stands for is a node. -/
theorem resolve_mem_nodes {root node : Form} (mem : node ∈ root.nodes) :
    root.resolve node ∈ root.nodes := by
  unfold resolve
  split
  · next n =>
    split
    · exact mem
    · cases h : root.definition? n with
      | none => exact mem
      | some definition => exact (definition?_eq_some h).1
  · exact mem

/-! ## Parts that are schemas of their own -/

mutual

/-- The schemas other than unions that are reached from a schema through unions only. -/
def parts : Form → List Form
  | union branches => partsOfBranches branches
  | form => [form]

/-- The parts of the branches of a union. -/
def partsOfBranches : List Form → List Form
  | [] => []
  | branch :: rest => branch.parts ++ partsOfBranches rest

end

theorem partsOfBranches_eq_flatMap (branches : List Form) :
    partsOfBranches branches = branches.flatMap parts := by
  induction branches with
  | nil => rfl
  | cons branch rest ih => simp [partsOfBranches, ih]

end AvroRegistry.Schema.Form
