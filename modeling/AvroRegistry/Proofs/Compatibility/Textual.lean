import AvroRegistry.Proofs.Compatibility.Budget
import AvroRegistry.Proofs.Schema.Regular

/-!
# Aliases that are texts

A check needs the aliases of its reader to be texts. If those of a schema are, so are those of its
canonical form, which puts them behind a namespace and sorts them.
-/

namespace AvroRegistry.Compatibility

open Schema

/-- A type whose own aliases and those of its fields are texts, like those of its parts. -/
theorem Textual.of_parts {form : Form} (parts : List Form)
    (nodes : form.nodes = form :: parts.flatMap Form.nodes)
    (own : ∀ a ∈ aliasesOf form, ∃ s, a = .str s)
    (heads : ∀ isError full aliases fields, form = .record isError full aliases fields →
      ∀ f ∈ fields, ∀ a ∈ f.1.aliases, a.isKey = true)
    (each : ∀ part ∈ parts, Textual part) : Textual form := by
  constructor
  · intro node mem
    rw [nodes] at mem
    rcases List.mem_cons.1 mem with rfl | inside
    · exact own
    · obtain ⟨part, listed, mem⟩ := List.mem_flatMap.1 inside
      exact (each part listed).types node mem
  · intro isError full aliases fields mem
    rw [nodes] at mem
    rcases List.mem_cons.1 mem with same | inside
    · exact heads isError full aliases fields same.symm
    · obtain ⟨part, listed, mem⟩ := List.mem_flatMap.1 inside
      exact (each part listed).fields isError full aliases fields mem

/-- A type without a name and without fields has the aliases of its parts. -/
theorem Textual.of_unnamed {form : Form} (parts : List Form)
    (nodes : form.nodes = form :: parts.flatMap Form.nodes) (unnamed : aliasesOf form = [])
    (other : ∀ isError full aliases fields, form ≠ .record isError full aliases fields)
    (each : ∀ part ∈ parts, Textual part) : Textual form :=
  .of_parts parts nodes (by rw [unnamed]; nofun) (fun _ _ _ _ same => absurd same (other _ _ _ _))
    each

theorem textual_resolved {name space : String} {D D' : List String} {form : Form}
    (ok : resolve name space D = .ok (form, D')) : Textual form := by
  obtain ⟨n, rfl, -, -⟩ := resolve_eq_ok ok
  exact .of_unnamed [] rfl rfl nofun nofun

section

variable {members : List (String × Json)}

theorem texts_of_typeAliases (given : TextAliases members) {space : String}
    {aliases : List Json} (ok : typeAliases space members = .ok aliases) :
    ∀ a ∈ aliases, ∃ s, a = .str s := by
  obtain ⟨texts, listed⟩ := typeAliases_texts given space
  cases ok.symm.trans listed
  intro a mem
  obtain ⟨s, -, rfl⟩ := List.mem_map.1 mem
  exact ⟨s, rfl⟩

theorem keys_of_fieldAliases (given : TextAliases members) {aliases : List Json}
    (ok : fieldAliases members = .ok aliases) : ∀ a ∈ aliases, a.isKey = true := by
  obtain ⟨texts, listed⟩ := fieldAliases_texts given
  cases ok.symm.trans listed
  intro a mem
  obtain ⟨s, -, rfl⟩ := List.mem_map.1 mem
  rfl

end

/-! ## The walk of normalizing -/

/-- What is made of a type with such aliases can be compared, as a property of the walk of
normalizing. -/
abbrev KeepsTexts (v : Json) (form : Form) : Prop :=
  (∀ members ∈ objects v, TextAliases members) → Textual form

theorem textual_branches {branches : List Json} {forms : List Form} {D D' : List String}
    (along : Along (fun v _ form _ => KeepsTexts v form) branches D forms D')
    (texts : ∀ v ∈ branches, ∀ members ∈ objects v, TextAliases members) :
    ∀ form ∈ forms, Textual form := by
  induction along with
  | nil => simp
  | cons first _ ih =>
    obtain ⟨here, later⟩ := List.forall_mem_cons.1 texts
    exact List.forall_mem_cons.2 ⟨first here, ih later⟩

theorem textual_field {item : Json} {field : FieldHead × Form} {D D' : List String}
    (made : FieldMade (fun v _ form _ => KeepsTexts v form) item D field D')
    (texts : ∀ members ∈ objects item, TextAliases members) :
    (∀ a ∈ field.1.aliases, a.isKey = true) ∧ Textual field.2 := by
  obtain ⟨members, name, v, aliases, rfl, -, -, typed, keeps, sorted, head⟩ := made.parts
  constructor
  · rw [head]
    exact keys_of_fieldAliases (texts members (self_mem_objects members)) sorted
  · exact keeps fun m inside => texts m (objects_lookup (by decide) typed inside)

theorem textual_fields {items : List Json} {fields : List (FieldHead × Form)} {D D' : List String}
    (along : Along (FieldMade fun v _ form _ => KeepsTexts v form) items D fields D')
    (texts : ∀ v ∈ items, ∀ members ∈ objects v, TextAliases members) :
    ∀ f ∈ fields, (∀ a ∈ f.1.aliases, a.isKey = true) ∧ Textual f.2 := by
  induction along with
  | nil => simp
  | cons first _ ih =>
    obtain ⟨here, later⟩ := List.forall_mem_cons.1 texts
    exact List.forall_mem_cons.2 ⟨textual_field first here, ih later⟩

/-- The canonical form of a type with such aliases can be compared. -/
theorem textual_of_texts {space : String} {v : Json} {D D' : List String} {form : Form}
    (ok : normalizeType space v D = .ok (form, D'))
    (texts : ∀ members ∈ objects v, TextAliases members) : Textual form := by
  refine normalizeType_traced (motive := fun _ v _ form _ => KeepsTexts v form) ?word ?union
    ?container ?record ?enumeration ?fixed ?primitive ?reference v ok texts
  case word => exact fun _ _ _ _ _ ok _ => textual_resolved ok
  case reference => exact fun _ _ _ _ _ _ _ _ _ ok _ => textual_resolved ok
  case primitive =>
    intro space members name D _ _ _
    unfold primitiveForm
    split
    · exact .of_unnamed [] rfl rfl (by simp) (by simp)
    · exact .of_unnamed [] rfl rfl (by simp) (by simp)
  case union =>
    intro space branches D forms D' _ along texts
    exact .of_unnamed forms (Form.nodes_union forms) rfl (by simp)
      (textual_branches along fun v mem m inside => texts m (objects_item mem inside))
  case container =>
    intro space c members v D part D' _ found keeps texts
    have read : c.key ∈ typeKeys := by cases c <;> decide
    have inner := keeps fun m inside => texts m (objects_lookup read found inside)
    refine .of_unnamed [part] ?_ ?_ ?_ (List.forall_mem_singleton.2 inner)
    · rw [nodes_container, List.flatMap_singleton]
    · cases c <;> rfl
    · cases c <;> simp [Container.form]
  case record =>
    intro space isError members full aliases items D fields D' _ introduced found _ along texts
    have inside := textual_fields along fun v mem m within =>
      texts m (objects_lookup (by decide) found (objects_item mem within))
    refine .of_parts (fields.map (·.2)) ?_
      (texts_of_typeAliases (texts members (self_mem_objects members)) introduced.aliased) ?_ ?_
    · rw [Form.nodes_record, List.flatMap_map]
    · intro _ _ _ _ same f mem
      cases same
      exact (inside f mem).1
    · intro part mem
      obtain ⟨f, listed, rfl⟩ := List.mem_map.1 mem
      exact (inside f listed).2
  case enumeration =>
    intro space members full aliases symbols items D _ introduced _ _ _ texts
    exact .of_parts [] rfl
      (texts_of_typeAliases (texts members (self_mem_objects members)) introduced.aliased)
      (by simp) (by simp)
  case fixed =>
    intro space members full aliases size D _ introduced _ texts
    exact .of_parts [] rfl
      (texts_of_typeAliases (texts members (self_mem_objects members)) introduced.aliased)
      (by simp) (by simp)

/-- The canonical form of a schema whose aliases are texts can be compared. -/
theorem textual_of_canonicalize {schema v : Json} {raw : String} {c : Canonical}
    (given : submitted schema = .ok (raw, v)) (ok : canonicalize schema = .ok c)
    (texts : ∀ members ∈ objects v, TextAliases members) : Textual c.form := by
  obtain ⟨-, normalized⟩ := canonicalize_eq_ok given ok
  obtain ⟨after, read⟩ := normalize_eq normalized
  exact textual_of_texts read texts

theorem textual_of_unaliased {schema v : Json} {raw : String} {c : Canonical}
    (given : submitted schema = .ok (raw, v)) (ok : canonicalize schema = .ok c)
    (unaliased : ∀ members ∈ objects v, Json.lookup "aliases" members = none) :
    Textual c.form := by
  exact textual_of_canonicalize given ok fun members mem =>
    textAliases_of_none (unaliased members mem)

end AvroRegistry.Compatibility
