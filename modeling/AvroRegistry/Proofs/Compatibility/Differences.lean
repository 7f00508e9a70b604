import AvroRegistry.Proofs.Compatibility.Records
import AvroRegistry.Proofs.Json.Sameness
import Mathlib.Data.Multiset.Bind

/-!
# Where two schemas differ

Some violations have a counterpart in the other direction. A field that only one of two records has
and that has no default is missing from the writer, if the record is the reader, and removed by the
reader, if it is the writer; two types that may not be matched by name, or two sizes, are found
whichever of the two reads. `Mark` tells these kinds of violations apart.

`differences` reads the marks off two schemas that are trees, as a multiset, without checking
anything: it goes down both trees together and needs no names to look up, no pairs met and no fuel.
It is the same for the two schemas in either order, but for the side of the fields
(`differences_opposite`): fields are matched by name, and a match has no direction.
-/

namespace AvroRegistry.Compatibility

open Schema (Form FieldHead unqualified)

/-! ## Marks -/

/-- What a violation is about, if it has a counterpart in the other direction. -/
inductive Mark where
  /-- A field of the reader that the writer does not have. -/
  | missing
  /-- A field of the writer that the reader does not have. -/
  | removed
  /-- Two names that do not match. -/
  | name
  /-- Two sizes. -/
  | size
  deriving DecidableEq

namespace Mark

/-- The mark that a cause leaves. -/
def of? : Cause → Option Mark
  | .readerFieldMissingDefault _ => some missing
  | .writerFieldRemoved _ => some removed
  | .nameMismatch _ _ => some name
  | .fixedSizeMismatch _ _ => some size
  | _ => none

/-- The kind of the causes that leave a mark. -/
def kind : Mark → String
  | missing => "READER_FIELD_MISSING_DEFAULT_VALUE"
  | removed => "WRITER_FIELD_REMOVED_WITHOUT_DEFAULT"
  | name => "NAME_MISMATCH"
  | size => "FIXED_SIZE_MISMATCH"

/-- The mark of the counterpart. -/
def turned : Mark → Mark
  | missing => removed
  | removed => missing
  | other => other

theorem turned_eq_iff {m m' : Mark} : m.turned = m' ↔ m = m'.turned := by
  cases m <;> cases m' <;> simp [turned]

theorem of?_eq_some_iff (cause : Cause) (m : Mark) : of? cause = some m ↔ cause.kind = m.kind := by
  cases cause <;> cases m <;> simp [of?, kind, Cause.kind]

end Mark

/-- A mark and its path, seen from the other side. -/
def opposite (place : Mark × String) : Mark × String := (place.1.turned, place.2)

/-- The marks that violations leave, with their paths. -/
def marks (violations : List Violation) : Multiset (Mark × String) :=
  ↑(violations.filterMap fun v => (Mark.of? v.cause).map fun m => (m, v.path))

/-- The paths of the violations of one kind. -/
def pathsOf (kind : String) (violations : List Violation) : Multiset String :=
  ↑((violations.filter fun v => v.cause.kind = kind).map (·.path))

@[simp]
theorem marks_append (first second : List Violation) :
    marks (first ++ second) = marks first + marks second := by
  unfold marks
  rw [List.filterMap_append, Multiset.coe_add]

/-- The paths of a kind of violations are those of its mark. -/
theorem pathsOf_kind (m : Mark) (violations : List Violation) :
    pathsOf m.kind violations = ((marks violations).filter (·.1 = m)).map (·.2) := by
  unfold pathsOf marks
  rw [Multiset.filter_coe, Multiset.map_coe]
  refine congrArg _ ?_
  induction violations with
  | nil => rfl
  | cons v rest ih =>
    have same := Mark.of?_eq_some_iff v.cause m
    cases left : Mark.of? v.cause with
    | none =>
      have other : ¬ v.cause.kind = m.kind := by simp [← same, left]
      rw [List.filter_cons_of_neg (by simpa using other), ih]
      simp [left]
    | some m' =>
      rw [left, Option.some.injEq] at same
      by_cases this : m' = m
      · have kind := same.1 this
        simp [left, this, kind, ih]
      · have kind : ¬ v.cause.kind = m.kind := fun h => this (same.2 h)
        simp [left, this, kind, ih]

/-- What is seen of a mark from the other side is its counterpart. -/
theorem paths_opposite (m : Mark) (places : Multiset (Mark × String)) :
    ((places.map opposite).filter (·.1 = m)).map (·.2) =
      (places.filter (·.1 = m.turned)).map (·.2) := by
  have sides : places.filter (fun place => (opposite place).1 = m) =
      places.filter (·.1 = m.turned) := Multiset.filter_congr fun place _ => Mark.turned_eq_iff
  rw [Multiset.filter_map, Multiset.map_map, ← sides]
  rfl

/-! ## Trees -/

/-- A type that a tree can have in it: no union, no reference to a named type, no aliases of its own
or of its fields, and fields that are named by texts. -/
def Simple : Form → Prop
  | .name n => Schema.isPrimitive n = true
  | .annotated _ _ => True
  | .union _ => False
  | .array _ => True
  | .map _ => True
  | .record _ _ aliases fields =>
    aliases = [] ∧ ∀ f ∈ fields, f.1.aliases = [] ∧ ∃ s, f.1.name = .str s
  | .enumeration _ aliases _ _ => aliases = []
  | .fixed _ aliases _ _ => aliases = []

/-- A schema that is a tree: a named type occurs in it where it is defined and nowhere else. -/
structure Tree (form : Form) : Prop where
  simple : ∀ node ∈ form.nodes, Simple node
  once : form.definedNames.Nodup

section

variable {form node : Form}

theorem Tree.single (tree : Tree form) (mem : node ∈ form.nodes) : ¬ IsUnion node := by
  rintro ⟨branches, rfl⟩
  exact tree.simple _ mem

theorem Tree.unaliased (tree : Tree form) (mem : node ∈ form.nodes) : aliasesOf node = [] := by
  have simple := tree.simple node mem
  cases node with
  | record isError full aliases fields => exact simple.1
  | enumeration full aliases symbols default => exact simple
  | fixed full aliases size attributes => exact simple
  | _ => rfl

theorem Tree.fields (tree : Tree form) {isError : Bool} {full : String} {aliases : List Json}
    {fields : List (FieldHead × Form)} (mem : .record isError full aliases fields ∈ form.nodes) :
    ∀ f ∈ fields, f.1.aliases = [] ∧ ∃ s, f.1.name = .str s :=
  (tree.simple _ mem).2

/-- A type in a tree stands for itself. -/
theorem Tree.resolve_eq (tree : Tree form) (mem : node ∈ form.nodes) :
    form.resolve node = node := by
  cases node with
  | name n => exact if_pos (tree.simple _ mem)
  | _ => rfl

/-- A type in a tree defines a name once. -/
theorem Tree.definedNames_nodup (tree : Tree form) (mem : node ∈ form.nodes) :
    node.definedNames.Nodup :=
  tree.once.sublist ((Form.nodes_segment mem).sublist.filterMap _)

end

/-! ## Differences -/

/-- The place of a field. -/
def fieldPath (path : String) (f : FieldHead × Form) : String :=
  path ++ "/fields/" ++ f.1.name.display

/-- What two named types come to, given what they come to if their names match. -/
def ifNamed (n m path : String) (rest : Multiset (Mark × String)) : Multiset (Mark × String) :=
  if unqualified n = unqualified m then rest else {(.name, path ++ "/name")}

/-- The fields that have no default and that other fields do not have, with a mark. -/
def lone (m : Mark) (path : String) (fields others : List (FieldHead × Form)) :
    Multiset (Mark × String) :=
  ↑((fields.filter fun f => (fieldNamed others f.1.name).isNone && f.1.default.isNone).map
    fun f => (m, fieldPath path f))

mutual

/-- The marks of two trees. -/
def differences : Form → Form → String → Multiset (Mark × String)
  | .array r, .array w, path => differences r w (path ++ "/items")
  | .map r, .map w, path => differences r w (path ++ "/values")
  | .record _ n _ fields, .record _ m _ fields', path =>
    ifNamed n m path
      (shared fields fields' path + lone .missing path fields fields' +
        lone .removed path fields' fields)
  | .enumeration n _ _ _, .enumeration m _ _ _, path => ifNamed n m path 0
  | .fixed n _ size _, .fixed m _ size' _, path =>
    ifNamed n m path (if size.equal size' then 0 else {(.size, path ++ "/size")})
  | _, _, _ => 0

/-- The marks of the types of fields that two records have in common. -/
def shared : List (FieldHead × Form) → List (FieldHead × Form) → String →
    Multiset (Mark × String)
  | [], _, _ => 0
  | (head, type) :: rest, others, path =>
    ((others : Multiset (FieldHead × Form)).bind fun g =>
      if g.1.name.same head.name then differences type g.2 (typePath path (head, type)) else 0) +
    shared rest others path

end

theorem shared_eq_bind (fields others : List (FieldHead × Form)) (path : String) :
    shared fields others path =
      (fields : Multiset (FieldHead × Form)).bind fun f =>
        (others : Multiset (FieldHead × Form)).bind fun g =>
          if g.1.name.same f.1.name then differences f.2 g.2 (typePath path f) else 0 := by
  induction fields with
  | nil => rw [shared]; rfl
  | cons f rest ih =>
    obtain ⟨head, type⟩ := f
    rw [shared, ih, ← Multiset.cons_coe, Multiset.cons_bind]

/-! ## From the other side -/

theorem map_ifNamed (n m path : String) (rest : Multiset (Mark × String)) :
    (ifNamed n m path rest).map opposite = ifNamed m n path (rest.map opposite) := by
  unfold ifNamed
  by_cases same : unqualified n = unqualified m
  · rw [if_pos same, if_pos same.symm]
  · rw [if_neg same, if_neg (Ne.symm same)]
    rfl

theorem map_lone (m : Mark) (path : String) (fields others : List (FieldHead × Form)) :
    (lone m path fields others).map opposite = lone m.turned path fields others := by
  unfold lone
  rw [Multiset.map_coe, List.map_map]
  rfl

/-- A field named by a text has the names that are the same as its own and no others. -/
theorem same_name_iff {f g : FieldHead × Form} (text : ∃ s, f.1.name = .str s) :
    f.1.name.same g.1.name = true ↔ f.1.name = g.1.name := by
  obtain ⟨s, hs⟩ := text
  rw [hs, Json.same_str_iff]
  exact eq_comm

/-- The sizes of the fixed types in a schema have members told apart by their keys. -/
def SizesKeyed (form : Form) : Prop :=
  ∀ full aliases size attributes, .fixed full aliases size attributes ∈ form.nodes →
    size.Everywhere Json.Keyed

section

variable {a b : Form}

/-- The types of the fields that two records have in common have marks that are seen alike from
both sides, if any two of them do. -/
theorem shared_opposite {fields fields' : List (FieldHead × Form)}
    (texts : ∀ f ∈ fields, ∃ s, f.1.name = .str s) (texts' : ∀ g ∈ fields', ∃ s, g.1.name = .str s)
    (each : ∀ f ∈ fields, ∀ g ∈ fields', ∀ path,
      (differences f.2 g.2 path).map opposite = differences g.2 f.2 path) (path : String) :
    (shared fields fields' path).map opposite = shared fields' fields path := by
  rw [shared_eq_bind, shared_eq_bind, Multiset.bind_bind, Multiset.map_bind]
  refine Multiset.bind_congr fun g hg => ?_
  rw [Multiset.map_bind]
  refine Multiset.bind_congr fun f hf => ?_
  have forth := same_name_iff (g := f) (texts' g hg)
  have back := same_name_iff (g := g) (texts f hf)
  by_cases same : g.1.name = f.1.name
  · rw [if_pos (forth.2 same), if_pos (back.2 same.symm), each f hf g hg]
    unfold typePath
    rw [same]
  · rw [if_neg (mt forth.1 same), if_neg (mt back.1 (Ne.symm same)), Multiset.map_zero]

/-- The marks of two trees are the same from both sides, but for the side of the fields. The
induction is on the first tree. -/
theorem differences_opposite (treeA : Tree a) (treeB : Tree b) (keyedA : SizesKeyed a)
    (keyedB : SizesKeyed b) (r : Form) :
    r ∈ a.nodes → ∀ w ∈ b.nodes, ∀ path,
      (differences r w path).map opposite = differences w r path := by
  induction r using Form.induct with
  | array r ih =>
    intro hr w hw path
    cases w with
    | array w =>
      rw [differences, differences]
      exact ih (Form.items_mem_nodes hr) w (Form.items_mem_nodes hw) _
    | _ => simp [differences]
  | map r ih =>
    intro hr w hw path
    cases w with
    | map w =>
      rw [differences, differences]
      exact ih (Form.values_mem_nodes hr) w (Form.values_mem_nodes hw) _
    | _ => simp [differences]
  | record isError n aliases fields ih =>
    intro hr w hw path
    cases w with
    | record isError' m aliases' fields' =>
      have each : (shared fields fields' path).map opposite = shared fields' fields path :=
        shared_opposite (fun f mem => (treeA.fields hr f mem).2)
          (fun g mem => (treeB.fields hw g mem).2)
          (fun f hf g hg => ih f hf (Form.type_mem_nodes hr hf) g.2 (Form.type_mem_nodes hw hg))
          path
      rw [differences, differences, map_ifNamed, Multiset.map_add, Multiset.map_add, map_lone,
        map_lone, each, add_right_comm]
      rfl
    | _ => simp [differences]
  | enumeration n aliases symbols default =>
    intro _ w _ path
    cases w with
    | enumeration m aliases' symbols' default' =>
      rw [differences, differences, map_ifNamed, Multiset.map_zero]
    | _ => simp [differences]
  | fixed n aliases size attributes =>
    intro hr w hw path
    cases w with
    | fixed m aliases' size' attributes' =>
      rw [differences, differences, map_ifNamed,
        Json.equal_comm (keyedA _ _ _ _ hr) (keyedB _ _ _ _ hw)]
      congr 1
      split
      · rfl
      · rfl
    | _ => simp [differences]
  | _ =>
    intro _ w _ path
    cases w <;> simp [differences]

end

end AvroRegistry.Compatibility
