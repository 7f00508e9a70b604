import AvroRegistry.Proofs.Compatibility.Mirrored

/-!
# Schemas that differ in one edit

`OneEdit edit` says that two schemas are the same but for one edit, of the whole or of one part at
any depth. What an edit may be is left open; if it keeps what a type defines and does not lose its
parts (`Conserves`), the schema before it has a type after it for every type that it has
(`exists_edited`), and a name stands for corresponding types in both (`resolve_edited`).
-/

namespace AvroRegistry.Compatibility

open Schema (Form FieldHead)

/-- One edit of a schema, of the whole or of one part at any depth. -/
inductive OneEdit (edit : Form → Form → Prop) : Form → Form → Prop where
  | here {a b : Form} (edited : edit a b) : OneEdit edit a b
  | branch (before after : List Form) {a b : Form} (inner : OneEdit edit a b) :
      OneEdit edit (.union (before ++ a :: after)) (.union (before ++ b :: after))
  | items {a b : Form} (inner : OneEdit edit a b) : OneEdit edit (.array a) (.array b)
  | values {a b : Form} (inner : OneEdit edit a b) : OneEdit edit (.map a) (.map b)
  | field (isError : Bool) (full : String) (aliases : List Json)
      (before after : List (FieldHead × Form)) (head : FieldHead) {a b : Form}
      (inner : OneEdit edit a b) :
      OneEdit edit (.record isError full aliases (before ++ (head, a) :: after))
        (.record isError full aliases (before ++ (head, b) :: after))

/-- Two types that are the same or differ in one edit. -/
def Edited (edit : Form → Form → Prop) (a b : Form) : Prop := a = b ∨ OneEdit edit a b

/-- An edit of types that are no names, which keeps what a type defines and all of its parts. -/
structure Conserves (edit : Form → Form → Prop) : Prop where
  source : ∀ {a b}, edit a b → ∀ n, a ≠ .name n
  target : ∀ {a b}, edit a b → ∀ n, b ≠ .name n
  defines : ∀ {a b}, edit a b → a.definedName? = b.definedName?
  parts : ∀ {a b}, edit a b → ∀ c ∈ a.nodes, c = a ∨ c ∈ b.nodes

section

variable {edit : Form → Form → Prop} {a b : Form}

/-- An edit that is taken back is the edit the other way round. -/
theorem OneEdit.flip (one : OneEdit edit a b) : OneEdit (flip edit) b a := by
  induction one with
  | here edited => exact .here edited
  | branch before after _ ih => exact .branch before after ih
  | items _ ih => exact .items ih
  | values _ ih => exact .values ih
  | field isError full aliases before after head _ ih =>
    exact .field isError full aliases before after head ih

theorem Edited.flip (edited : Edited edit a b) : Edited (flip edit) b a :=
  edited.imp Eq.symm OneEdit.flip

section conserves

variable (conserves : Conserves edit)

include conserves

theorem OneEdit.source (one : OneEdit edit a b) (n : String) : a ≠ .name n := by
  cases one with
  | here edited => exact conserves.source edited n
  | _ => simp

theorem OneEdit.target (one : OneEdit edit a b) (n : String) : b ≠ .name n := by
  cases one with
  | here edited => exact conserves.target edited n
  | _ => simp

theorem Edited.defines (edited : Edited edit a b) : a.definedName? = b.definedName? := by
  rcases edited with rfl | one
  · rfl
  · cases one with
    | here edited => exact conserves.defines edited
    | _ => rfl

/-- An edit of one part leaves the types of the other parts. -/
theorem exists_edited (one : OneEdit edit a b) :
    ∀ c ∈ a.nodes, ∃ d ∈ b.nodes, Edited edit c d := by
  induction one with
  | @here a b edited =>
    intro c mem
    rcases conserves.parts edited c mem with rfl | kept
    · exact ⟨b, b.self_mem_nodes, .inr (.here edited)⟩
    · exact ⟨c, kept, .inl rfl⟩
  | @branch before after a b inner ih =>
    intro c mem
    rw [Form.nodes_union, List.mem_cons, List.mem_flatMap] at mem
    have whole : ∀ branch ∈ before ++ b :: after, ∀ d ∈ branch.nodes,
        d ∈ (Form.union (before ++ b :: after)).nodes := by
      intro branch listed d inside
      rw [Form.nodes_union]
      exact List.mem_cons_of_mem _ (List.mem_flatMap.2 ⟨branch, listed, inside⟩)
    rcases mem with rfl | ⟨branch, listed, inside⟩
    · exact ⟨_, Form.self_mem_nodes _, .inr (.branch before after inner)⟩
    · rw [List.mem_append, List.mem_cons] at listed
      rcases listed with first | rfl | last
      · exact ⟨c, whole branch (by simp [first]) c inside, .inl rfl⟩
      · obtain ⟨d, found, edited⟩ := ih c inside
        exact ⟨d, whole b (by simp) d found, edited⟩
      · exact ⟨c, whole branch (by simp [last]) c inside, .inl rfl⟩
  | items inner ih =>
    intro c mem
    rcases List.mem_cons.1 mem with rfl | inside
    · exact ⟨_, Form.self_mem_nodes _, .inr (.items inner)⟩
    · obtain ⟨d, found, edited⟩ := ih c inside
      exact ⟨d, List.mem_cons_of_mem _ found, edited⟩
  | values inner ih =>
    intro c mem
    rcases List.mem_cons.1 mem with rfl | inside
    · exact ⟨_, Form.self_mem_nodes _, .inr (.values inner)⟩
    · obtain ⟨d, found, edited⟩ := ih c inside
      exact ⟨d, List.mem_cons_of_mem _ found, edited⟩
  | @field isError full aliases before after head a b inner ih =>
    intro c mem
    rw [Form.nodes_record, List.mem_cons, List.mem_flatMap] at mem
    have whole : ∀ f ∈ before ++ (head, b) :: after, ∀ d ∈ f.2.nodes,
        d ∈ (Form.record isError full aliases (before ++ (head, b) :: after)).nodes := by
      intro f listed d inside
      rw [Form.nodes_record]
      exact List.mem_cons_of_mem _ (List.mem_flatMap.2 ⟨f, listed, inside⟩)
    rcases mem with rfl | ⟨f, listed, inside⟩
    · exact ⟨_, Form.self_mem_nodes _, .inr (.field _ _ _ before after head inner)⟩
    · rw [List.mem_append, List.mem_cons] at listed
      rcases listed with first | rfl | last
      · exact ⟨c, whole f (by simp [first]) c inside, .inl rfl⟩
      · obtain ⟨d, found, edited⟩ := ih c inside
        exact ⟨d, whole (head, b) (by simp) d found, edited⟩
      · exact ⟨c, whole f (by simp [last]) c inside, .inl rfl⟩

/-- A name stands for corresponding types before and after an edit, if every reference leads to a
definition before it and names are defined once after it. -/
theorem resolve_edited {small large : Form} (one : OneEdit edit small large)
    (linked : Linked small) (once : large.definedNames.Nodup) (mem : a ∈ small.nodes)
    (edited : Edited edit a b) : Edited edit (small.resolve a) (large.resolve b) := by
  cases a with
  | name n =>
    obtain rfl : Form.name n = b := by
      rcases edited with same | inner
      · exact same
      · exact absurd rfl (inner.source conserves n)
    have grounded := linked.grounded _ mem
    unfold Form.resolve at grounded ⊢
    dsimp only at grounded ⊢
    split
    · exact .inl rfl
    · next other =>
      rw [if_neg other] at grounded
      cases found : small.definition? n with
      | none =>
        rw [found] at grounded
        exact absurd (grounded n rfl) other
      | some definition =>
        -- What corresponds to the definition defines the name, so it is the definition there.
        obtain ⟨inside, defines⟩ := Form.definition?_eq_some found
        obtain ⟨d, inside', same⟩ := exists_edited conserves one definition inside
        have defines' : d.definedName? = some n := (same.defines conserves).symm.trans defines
        obtain ⟨d', found'⟩ := Form.exists_definition inside' defines'
        obtain ⟨here, named⟩ := Form.definition?_eq_some found'
        obtain rfl := eq_of_definedName once inside' here defines' named
        rw [found']
        exact same
  | _ =>
    rcases edited with rfl | inner
    · exact .inl rfl
    · have plain := inner.target conserves
      cases b with
      | name n => exact absurd rfl (plain n)
      | _ => exact .inr inner

end conserves

end

/-! ## A schema and an edit of it -/

section

variable {reads : Form → Form → Prop} {reader writer : List (FieldHead × Form)}

/-- Fields read those of a writer if each of them has the counterpart it should have, or none and a
default. -/
theorem FieldsRead.of_counterparts
    (each : ∀ f ∈ reader, (∃ g, counterpart? writer f.1 = some g ∧ reads f.2 g.2) ∨
      counterpart? writer f.1 = none ∧ f.1.default.isSome = true)
    (covered : ∀ g ∈ writer, (∃ f ∈ reader, counterpart? writer f.1 = some g) ∨
      g.1.default.isSome = true) : FieldsRead reads reader writer where
  found f mem g found := by
    rcases each f mem with ⟨g', found', holds⟩ | ⟨none, -⟩
    · cases found'.symm.trans found
      exact holds
    · cases none.symm.trans found
  missing f mem none := by
    rcases each f mem with ⟨g, found, -⟩ | ⟨-, defaulted⟩
    · cases found.symm.trans none
    · exact defaulted
  removed := covered

/-- A field is the counterpart of one with the same head. -/
theorem counterpart?_of_head (differ : Form.NamesDiffer writer) {f g : FieldHead × Form}
    (mem : g ∈ writer) (same : f.1 = g.1) : counterpart? writer f.1 = some g := by
  rw [same]
  exact counterpart?_self differ mem

/-- Fields with the same heads read each other if their types do. -/
theorem fieldsRead_of_heads (differ : Form.NamesDiffer writer)
    (each : ∀ f ∈ reader, ∃ g ∈ writer, f.1 = g.1 ∧ reads f.2 g.2)
    (covered : ∀ g ∈ writer, (∃ f ∈ reader, f.1 = g.1) ∨ g.1.default.isSome = true) :
    FieldsRead reads reader writer := by
  apply FieldsRead.of_counterparts
  · intro f mem
    obtain ⟨g, listed, same, holds⟩ := each f mem
    exact .inl ⟨g, counterpart?_of_head differ listed same, holds⟩
  · intro g mem
    rcases covered g mem with ⟨f, listed, same⟩ | defaulted
    · exact .inl ⟨f, listed, counterpart?_of_head differ mem same⟩
    · exact .inr defaulted

end

section

variable {edit : Form → Form → Prop} {reader writer : Form}

/-- A type of a reader is one of the writer as it is or after an edit. -/
structure Corresponds (edit : Form → Form → Prop) (reader writer r w : Form) : Prop where
  read : r ∈ reader.nodes
  written : w ∈ writer.nodes
  edited : Edited edit w r

/-- An edit of types other than unions makes a reader that runs parallel to the writer, if what is
edited matches the original. -/
theorem parallel_of_edit (linked : Linked writer)
    (resolved : ∀ {r w}, Corresponds edit reader writer r w →
      Edited edit (writer.resolve w) (reader.resolve r))
    (plain : ∀ {a b}, edit a b → ¬ IsUnion a ∧ ¬ IsUnion b)
    (sizes : ∀ full aliases size attributes, .fixed full aliases size attributes ∈ reader.nodes →
      .fixed full aliases size attributes ∈ writer.nodes → size.equal size = true)
    (here : ∀ {r w}, edit w r → r ∈ reader.nodes → w ∈ writer.nodes →
      Matches (Corresponds edit reader writer) r w) :
    Parallel reader writer (Corresponds edit reader writer) where
  resolved h :=
    ⟨Form.resolve_mem_nodes h.read, Form.resolve_mem_nodes h.written, resolved h⟩
  branches := by
    rintro r branches ⟨read, written, edited⟩
    have kept : ∀ {c}, c ∈ branches → c ∈ reader.nodes → Corresponds edit reader writer c c :=
      fun mem known => ⟨known, Form.branch_mem_nodes written mem, .inl rfl⟩
    rcases edited with rfl | one
    · exact ⟨branches, rfl, fun c mem => ⟨c, mem, kept mem (Form.branch_mem_nodes read mem)⟩⟩
    · cases one with
      | here edited => exact absurd ⟨_, rfl⟩ (plain edited).1
      | @branch before after a b inner =>
        refine ⟨_, rfl, fun c mem => ?_⟩
        have known : ∀ {d}, d ∈ before ++ b :: after → d ∈ reader.nodes :=
          Form.branch_mem_nodes read
        rcases List.mem_append.1 mem with first | rest
        · have listed : c ∈ before ++ b :: after := by simp [first]
          exact ⟨c, listed, kept mem (known listed)⟩
        · rcases List.mem_cons.1 rest with rfl | last
          · have listed : b ∈ before ++ b :: after := by simp
            exact ⟨b, listed, known listed, Form.branch_mem_nodes written mem, .inr inner⟩
          · have listed : c ∈ before ++ b :: after := by simp [last]
            exact ⟨c, listed, kept mem (known listed)⟩
  single := by
    rintro branches w ⟨-, -, rfl | one⟩
    · exact ⟨branches, rfl⟩
    · cases one with
      | here edited => exact absurd ⟨_, rfl⟩ (plain edited).2
      | branch before after inner => exact ⟨_, rfl⟩
  matched := by
    rintro r w ⟨read, written, edited⟩ stands single
    have grounded := linked.grounded w written
    rw [stands] at grounded
    have tidy := linked.tidy w written
    have kept : ∀ c ∈ directParts w, c ∈ reader.nodes → Corresponds edit reader writer c c :=
      fun c mem known => ⟨known, directParts_mem_nodes written mem, .inl rfl⟩
    rcases edited with rfl | one
    · refine matches_same grounded tidy single (fun full aliases size attributes is => ?_) ?_
      · exact sizes full aliases size attributes (is ▸ read) (is ▸ written)
      · exact fun c mem => kept c mem (directParts_mem_nodes read mem)
    · cases one with
      | here edited => exact here edited read written
      | branch before after inner => exact absurd ⟨_, rfl⟩ single
      | items inner =>
        exact .array ⟨Form.items_mem_nodes read, Form.items_mem_nodes written, .inr inner⟩
      | values inner =>
        exact .map ⟨Form.values_mem_nodes read, Form.values_mem_nodes written, .inr inner⟩
      | @field isError full aliases before after head a b inner =>
        have known : ∀ {f}, f ∈ before ++ (head, b) :: after → f.2 ∈ reader.nodes :=
          Form.type_mem_nodes read
        refine .record (.inl rfl) (fieldsRead_of_heads tidy.2 (fun f mem => ?_) fun g mem => ?_)
        · rcases List.mem_append.1 mem with first | rest
          · have listed : f ∈ before ++ (head, a) :: after := by simp [first]
            exact ⟨f, listed, rfl, kept f.2 (List.mem_map_of_mem listed) (known mem)⟩
          · rcases List.mem_cons.1 rest with rfl | last
            · refine ⟨(head, a), by simp, rfl, known mem, ?_, .inr inner⟩
              exact Form.type_mem_nodes written (by simp : (head, a) ∈ before ++ (head, a) :: after)
            · have listed : f ∈ before ++ (head, a) :: after := by simp [last]
              exact ⟨f, listed, rfl, kept f.2 (List.mem_map_of_mem listed) (known mem)⟩
        · rcases List.mem_append.1 mem with first | rest
          · exact .inl ⟨g, by simp [first], rfl⟩
          · rcases List.mem_cons.1 rest with rfl | last
            · exact .inl ⟨(head, b), by simp, rfl⟩
            · exact .inl ⟨g, by simp [last], rfl⟩

end

end AvroRegistry.Compatibility
