import AvroRegistry.Proofs.Compatibility.Recoded

/-!
# Renaming with an alias

A field of a record or a named type is given a new name and keeps the old one as an alias. The schema
that comes of it reads the original (`renamed_passes`): under the new name nothing is found in the
original, so the alias decides, and no other alias of a field may lead to another field. It does not
matter how often the type is referred to, whether it refers to itself, or in which unions it occurs,
because the new name stands for the renamed type wherever the old one stood for the original.
-/

namespace AvroRegistry.Compatibility

open Schema (Form FieldHead)

variable {form : Form} {old new : String} {place : List Json → List Json}

/-- A way of adding a name to aliases, which may put them in another order and leave out what it
finds twice. -/
def Adds (old : String) (place : List Json → List Json) : Prop :=
  ∀ aliases a, a ∈ place aliases ↔ a = .str old ∨ a ∈ aliases

/-! ## Fields -/

/-- The field of one name of one record is given a new name and keeps the old one as an alias. -/
def fieldRenaming (full old new : String) (place : List Json → List Json) : Recoding where
  name n := n
  aliases _ aliases := aliases
  head n head :=
    if n = full ∧ head.name = .str old then
      { head with name := .str new, aliases := place head.aliases }
    else head

/-- A field of a record may be called by a new name: no field of the record is, and no alias of the
field is the name of another one. -/
structure MayRename (fields : List (FieldHead × Form)) (f : FieldHead × Form) (new : String) :
    Prop where
  mem : f ∈ fields
  unused : ∀ g ∈ fields, g.1.name ≠ .str new
  aliases : ∀ a ∈ f.1.aliases, ∀ g ∈ fields, g.1.name.same a = true → g = f

theorem findSome?_only {α β : Type} {xs : List α} {h : α → Option β} {x : α} {y : β}
    (only : ∀ a ∈ xs, ∀ b, h a = some b → b = y) (mem : x ∈ xs) (found : h x = some y) :
    xs.findSome? h = some y := by
  cases first : xs.findSome? h with
  | none =>
    rw [List.findSome?_eq_none_iff] at first
    rw [first x mem] at found
    cases found
  | some b =>
    obtain ⟨a, listed, found⟩ := List.exists_of_findSome?_eq_some first
    rw [only a listed b found]

section

variable {fields : List (FieldHead × Form)} {f : FieldHead × Form}
  (differ : Form.NamesDiffer fields) (named : f.1.name = .str old) (may : MayRename fields f new)
  (adds : Adds old place)

include differ

theorem fieldNamed_unused (unused : ∀ g ∈ fields, g.1.name ≠ .str new) :
    fieldNamed fields (.str new) = none := by
  refine List.find?_eq_none.2 fun g mem same => unused g mem ?_
  rw [Json.same_comm (differ.keys g mem) rfl] at same
  exact (Json.same_str_iff new _).1 same

include named may adds

/-- The renamed field finds the field it was. -/
theorem counterpart?_renamed {head : FieldHead} (renamed : head.name = .str new)
    (aliased : head.aliases = place f.1.aliases) : counterpart? fields head = some f := by
  have original : fieldNamed fields (.str old) = some f := by
    rw [← named]
    exact fieldNamed_self differ may.mem
  have listed : .str old ∈ place f.1.aliases := (adds _ _).2 (.inl rfl)
  unfold counterpart?
  rw [renamed, aliased, fieldNamed_unused differ may.unused, Option.none_or]
  refine findSome?_only (fun a mem g found => ?_) listed original
  rcases (adds _ _).1 mem with rfl | other
  · exact Option.some.inj (found.symm.trans original)
  · exact may.aliases a other g (List.mem_of_find?_eq_some found)
      (List.find?_some (p := fun g : FieldHead × Form => g.1.name.same a) found)

end

section

variable {fields : List (FieldHead × Form)} {f : FieldHead × Form} {full : String}

theorem head_of_other {n : String} {head : FieldHead} (other : ¬ (n = full ∧ head.name = .str old)) :
    (fieldRenaming full old new place).head n head = head := if_neg other

theorem head_of_renamed {head : FieldHead} (named : head.name = .str old) :
    (fieldRenaming full old new place).head full head =
      { head with name := .str new, aliases := place head.aliases } := if_pos ⟨rfl, named⟩

/-- Fields that keep their names keep them apart. -/
theorem namesDiffer_kept {g : FieldHead × Form → FieldHead × Form}
    (kept : ∀ f, (g f).1.name = f.1.name) (differ : Form.NamesDiffer fields) :
    Form.NamesDiffer (fields.map g) := by
  constructor
  · rw [List.forall_mem_map]
    intro f mem
    rw [kept]
    exact differ.keys f mem
  · rw [List.pairwise_map]
    refine differ.differ.imp fun {f h} other => ?_
    rw [kept, kept]
    exact other

/-- A name has one record, where names are defined once. -/
theorem fields_eq_of_once {isError isError' : Bool} {others others' : List Json}
    {fields' : List (FieldHead × Form)} (once : form.definedNames.Nodup)
    (node : .record isError full others fields ∈ form.nodes)
    (node' : .record isError' full others' fields' ∈ form.nodes) : fields' = fields := by
  have same := eq_of_definedName once node' node rfl rfl
  cases same
  rfl

/-- The names of a record stay different when one becomes a name that is not used. -/
theorem namesDiffer_renamed (differ : Form.NamesDiffer fields)
    (unused : ∀ g ∈ fields, g.1.name ≠ .str new) :
    Form.NamesDiffer
      (fields.map (recodeField (fieldRenaming full old new place) full)) := by
  have apart : ∀ g ∈ fields, g.1.name.same (.str new) = false ∧
      (Json.str new).same g.1.name = false := by
    intro g mem
    have other : ¬ (Json.str new).same g.1.name = true := fun same =>
      unused g mem ((Json.same_str_iff new _).1 same)
    rw [Json.same_comm (differ.keys g mem) rfl]
    exact ⟨by simpa using other, by simpa using other⟩
  constructor
  · rw [List.forall_mem_map]
    intro g mem
    unfold recodeField
    by_cases named : g.1.name = .str old
    · rw [head_of_renamed named]
      rfl
    · rw [head_of_other fun h => named h.2]
      exact differ.keys g mem
  · rw [List.pairwise_map]
    refine differ.differ.imp_of_mem fun {g h} first second other => ?_
    unfold recodeField
    by_cases named : g.1.name = .str old
    · by_cases named' : h.1.name = .str old
      · rw [named, named', Json.same_refl rfl] at other
        cases other
      · rw [head_of_renamed named, head_of_other fun h => named' h.2]
        exact (apart h second).2
    · rw [head_of_other fun h => named h.2]
      by_cases named' : h.1.name = .str old
      · rw [head_of_renamed named']
        exact (apart g first).1
      · rw [head_of_other fun h => named' h.2]
        exact other

/-- After a field has been renamed everything can still be found. -/
theorem findable_fieldRenaming {isError : Bool} {others : List Json} (linked : Linked form)
    (once : form.definedNames.Nodup) (node : .record isError full others fields ∈ form.nodes)
    (named : f.1.name = .str old) (may : MayRename fields f new) (adds : Adds old place) :
    (fieldRenaming full old new place).Findable form where
  apart _ _ _ _ same := same
  other _ _ other := other
  named _ _ := .inl rfl
  texts _ _ texts := texts
  differ isError' full' others' fields' node' := by
    have differ := (linked.tidy _ node').2
    by_cases here : full' = full
    · subst here
      obtain rfl := fields_eq_of_once once node node'
      exact namesDiffer_renamed differ may.unused
    · refine namesDiffer_kept (fun g => ?_) differ
      unfold recodeField
      rw [head_of_other fun h => here h.1]
  found isError' full' others' fields' node' g listed := by
    have differ := (linked.tidy _ node').2
    by_cases here : full' = full ∧ g.1.name = .str old
    · obtain ⟨rfl, named'⟩ := here
      obtain rfl := fields_eq_of_once once node node'
      obtain rfl : g = f := by
        refine eq_of_same_name differ listed may.mem ?_
        rw [named, named', Json.same_refl rfl]
      rw [head_of_renamed named]
      exact counterpart?_renamed differ named may adds rfl rfl
    · rw [head_of_other here]
      exact counterpart?_self differ listed
  keys isError' full' others' fields' node' g listed keys := by
    by_cases here : full' = full ∧ g.1.name = .str old
    · obtain ⟨rfl, named'⟩ := here
      rw [head_of_renamed named']
      intro a mem
      rcases (adds _ _).1 mem with rfl | other
      · rfl
      · exact keys a other
    · rw [head_of_other here]
      exact keys

end

/-! ## Types -/

/-- The type of one name is given a new name and keeps the old one as an alias. -/
def typeRenaming (old new : String) (place : List Json → List Json) : Recoding where
  name n := if n = old then new else n
  aliases n aliases := if n = old then place aliases else aliases
  head _ head := head

/-- After a type has been given a fresh name everything can still be found. -/
theorem findable_typeRenaming (linked : Linked form) (fresh : new ∉ form.definedNames)
    (other : Schema.isPrimitive new = false) (adds : Adds old place) :
    (typeRenaming old new place).Findable form where
  apart m known n known' same := by
    simp only [typeRenaming] at same
    split at same
    · next first =>
      split at same
      · next second => rw [first, second]
      · exact absurd (same ▸ known') fresh
    · split at same
      · exact absurd (same ▸ known) fresh
      · exact same
  other n _ plain := by
    simp only [typeRenaming]
    split
    · exact other
    · exact plain
  named n aliases := by
    by_cases here : n = old
    · refine .inr (.inl ?_)
      simp only [typeRenaming, here, if_true]
      exact (adds aliases _).2 (.inl rfl)
    · simp only [typeRenaming, if_neg here]
      exact .inl rfl
  texts n aliases texts := by
    simp only [typeRenaming]
    split
    · intro a mem
      rcases (adds aliases _).1 mem with rfl | listed
      · exact ⟨old, rfl⟩
      · exact texts a listed
    · exact texts
  differ isError full others fields node :=
    namesDiffer_kept (fun _ => rfl) (linked.tidy _ node).2
  found isError full others fields node f listed :=
    counterpart?_self (linked.tidy _ node).2 listed
  keys _ _ _ _ _ _ _ keys := keys

/-! ## Schemas -/

/-- A schema in which a field or a type has been renamed and keeps its old name as an alias reads the
original. -/
theorem renamed_passes {schema v : Json} {raw : String} {c : Schema.Canonical}
    (given : Schema.submitted schema = .ok (raw, v)) (ok : Schema.canonicalize schema = .ok c)
    (numbers : v.Everywhere fun w => w ≠ .float .nan)
    (aliases : ∀ members ∈ Schema.objects v, Schema.TextAliases members)
    (once : c.form.definedNames.Nodup) :
    (∀ isError full others fields f old new place,
      .record isError full others fields ∈ c.form.nodes → f.1.name = .str old →
      MayRename fields f new → Adds old place →
      checkReaderWriter (recode (fieldRenaming full old new place) c.form).toJson c.value =
        .ok []) ∧
    ∀ old new place, new ∉ c.form.definedNames → Schema.isPrimitive new = false →
      Adds old place →
      checkReaderWriter (recode (typeRenaming old new place) c.form).toJson c.value = .ok [] := by
  have linked := linked_of_canonicalize ok
  have sizes := sizesEqual_of_canonicalize given ok numbers
  have textual := textual_of_canonicalize given ok aliases
  have passes : ∀ k : Recoding, k.Findable c.form →
      checkReaderWriter (recode k c.form).toJson c.value = .ok [] := fun k findable =>
    checkReaderWriter_of_reads (linked_recode findable linked) linked
      (textual_recode findable textual) (recode_reads findable linked sizes)
  constructor
  · intro isError full others fields f old new place node named may adds
    exact passes _ (findable_fieldRenaming linked once node named may adds)
  · intro old new place fresh other adds
    exact passes _ (findable_typeRenaming linked fresh other adds)

/-- A list whose nodes refer to each other, with its field or its type renamed. -/
theorem linked_renamed_passes :
    checkReaderWriter (Form.record false "list.Node" [] [(⟨.str "tail", none, [.str "next"], none⟩,
        .union [.name "null", .name "list.Node"])]).toJson linkedForm.toJson = .ok [] ∧
      checkReaderWriter (Form.record false "list.Cell" [.str "list.Node"]
        [(⟨.str "next", none, [], none⟩, .union [.name "null", .name "list.Cell"])]).toJson
        linkedForm.toJson = .ok [] := by
  have given : Schema.submitted linkedValue =
      .ok (linkedValue.encode Json.spaced, linkedValue) :=
    Schema.submitted_value (Json.readable_of_exact (by decide)) rfl rfl
  have ok : Schema.canonicalize linkedValue = .ok ⟨linkedForm, linkedValue.encode Json.spaced⟩ :=
    canonicalize_eq given rfl rfl
  have numbers : ∀ w ∈ linkedValue.parts, w ≠ .float .nan := by decide
  have unaliased : ∀ members ∈ Schema.objects linkedValue,
      Json.lookup "aliases" members = none := by decide
  have texts : ∀ members ∈ Schema.objects linkedValue, Schema.TextAliases members :=
    fun members mem => Schema.textAliases_of_none (unaliased members mem)
  obtain ⟨fields, types⟩ := renamed_passes given ok numbers texts (by decide)
  have adds : ∀ name, Adds name fun aliases => .str name :: aliases := fun _ _ _ => List.mem_cons
  constructor
  · refine fields false "list.Node" [] [(⟨.str "next", none, [], none⟩,
      .union [.name "null", .name "list.Node"])] _ "next" "tail" _ (Form.self_mem_nodes _) rfl
      ⟨List.mem_cons_self, ?_, ?_⟩ (adds "next")
    · simp
    · simp
  · exact types "list.Node" "list.Cell" _ (by decide) rfl (adds "list.Node")

end AvroRegistry.Compatibility
