import AvroRegistry.Proofs.Compatibility.Consulted
import AvroRegistry.Proofs.Compatibility.Edited

/-!
# Fields with a default may come and go

A schema and the same schema with a further field in some record read each other, if the field has a
default and no aliases (`reads_inserted`, `reads_original`). A reader with the field takes its
default where the writer has none, and a reader without it passes over it. Wherever the record is
met again, through a name or in the branch of a union, both sides find it changed in the same way.
-/

namespace AvroRegistry.Compatibility

open Schema (Form FieldHead)

/-- A field with a default and no aliases comes into a record, at any place. -/
inductive OptionalField : Form → Form → Prop where
  | inserted (isError : Bool) (full : String) (aliases : List Json)
      (before after : List (FieldHead × Form)) (field : FieldHead × Form)
      (default : field.1.default.isSome = true) (unaliased : field.1.aliases = []) :
      OptionalField (.record isError full aliases (before ++ after))
        (.record isError full aliases (before ++ field :: after))

theorem conserves_optionalField : Conserves OptionalField where
  source := by
    intro a b edited n
    cases edited
    simp
  target := by
    intro a b edited n
    cases edited
    simp
  defines := by
    intro a b edited
    cases edited
    rfl
  parts := by
    intro a b edited c mem
    obtain ⟨isError, full, aliases, before, after, field, -, -⟩ := edited
    rw [Form.nodes_record, List.mem_cons, List.mem_flatMap] at mem
    rcases mem with rfl | ⟨f, listed, inside⟩
    · exact .inl rfl
    · refine .inr ?_
      rw [Form.nodes_record]
      refine List.mem_cons_of_mem _ (List.mem_flatMap.2 ⟨f, ?_, inside⟩)
      rw [List.mem_append, List.mem_cons]
      exact (List.mem_append.1 listed).imp_right .inr

theorem OptionalField.single {a b : Form} (edited : OptionalField a b) :
    ¬ IsUnion a ∧ ¬ IsUnion b := by
  obtain ⟨isError, full, aliases, before, after, field, -, -⟩ := edited
  exact ⟨by simp [IsUnion], by simp [IsUnion]⟩

/-! ## Fields -/

section

variable {before after : List (FieldHead × Form)} {field : FieldHead × Form}

theorem listed_of_rest {f : FieldHead × Form} (mem : f ∈ before ++ after) :
    f ∈ before ++ field :: after := by
  rw [List.mem_append, List.mem_cons]
  exact (List.mem_append.1 mem).imp_right .inr

theorem eq_or_rest {f : FieldHead × Form} (mem : f ∈ before ++ field :: after) :
    f = field ∨ f ∈ before ++ after := by
  rw [List.mem_append, List.mem_cons] at mem
  rw [List.mem_append]
  tauto

/-- Names that differ differ without one of them. -/
theorem namesDiffer_rest (differ : Form.NamesDiffer (before ++ field :: after)) :
    Form.NamesDiffer (before ++ after) where
  keys f mem := differ.keys f (listed_of_rest mem)
  differ := differ.differ.sublist (List.Sublist.append_left (List.sublist_cons_self _ _) _)

/-- No other field has the name of a field. -/
theorem fieldNamed_rest (differ : Form.NamesDiffer (before ++ field :: after)) :
    fieldNamed (before ++ after) field.1.name = none := by
  refine List.find?_eq_none.2 fun f mem same => ?_
  have parts := List.pairwise_append.1 differ.differ
  rcases List.mem_append.1 mem with first | last
  · have other := parts.2.2 f first field List.mem_cons_self
    rw [other] at same
    cases same
  · have other := (List.pairwise_cons.1 parts.2.1).1 f last
    have key := differ.keys f (listed_of_rest mem)
    rw [Json.same_comm key (differ.keys field (by simp)), other] at same
    cases same

theorem counterpart?_rest (differ : Form.NamesDiffer (before ++ field :: after))
    (unaliased : field.1.aliases = []) : counterpart? (before ++ after) field.1 = none := by
  unfold counterpart?
  rw [fieldNamed_rest differ, unaliased]
  rfl

variable {reads : Form → Form → Prop} (each : ∀ f ∈ before ++ after, reads f.2 f.2)
  (differ : Form.NamesDiffer (before ++ field :: after)) (default : field.1.default.isSome = true)

include each differ default

/-- With a further field the fields read those without it. -/
theorem fieldsRead_inserted (unaliased : field.1.aliases = []) :
    FieldsRead reads (before ++ field :: after) (before ++ after) := by
  have rest := namesDiffer_rest differ
  apply FieldsRead.of_counterparts
  · intro f mem
    rcases eq_or_rest mem with rfl | kept
    · exact .inr ⟨counterpart?_rest differ unaliased, default⟩
    · exact .inl ⟨f, counterpart?_self rest kept, each f kept⟩
  · intro g mem
    exact .inl ⟨g, listed_of_rest mem, counterpart?_self rest mem⟩

/-- Without the further field they read those with it. -/
theorem fieldsRead_original :
    FieldsRead reads (before ++ after) (before ++ field :: after) := by
  apply FieldsRead.of_counterparts
  · intro f mem
    exact .inl ⟨f, counterpart?_self differ (listed_of_rest mem), each f mem⟩
  · intro g mem
    rcases eq_or_rest mem with rfl | kept
    · exact .inr default
    · exact .inl ⟨g, kept, counterpart?_self differ mem⟩

end

/-! ## Schemas -/

section

variable {small large : Form} (one : OneEdit OptionalField small large) (linked : Linked small)
  (linked' : Linked large) (once : large.definedNames.Nodup)

include one linked linked' once

theorem parallel_inserted (sizes : SizesEqual small) :
    Parallel large small (Corresponds OptionalField large small) := by
  refine parallel_of_edit linked (fun h => ?_) OptionalField.single
    (fun full aliases size attributes _ mem => sizes full aliases size attributes mem) ?_
  · exact resolve_edited conserves_optionalField one linked once h.written h.edited
  · intro r w edited read written
    obtain ⟨isError, full, aliases, before, after, field, default, unaliased⟩ := edited
    have tidy := linked'.tidy _ read
    refine .record (.inl rfl) (fieldsRead_inserted (fun f mem => ?_) tidy.2 default unaliased)
    exact ⟨Form.type_mem_nodes read (listed_of_rest mem), Form.type_mem_nodes written mem, .inl rfl⟩

theorem parallel_original (sizes : SizesEqual small) :
    Parallel small large (Corresponds (flip OptionalField) small large) := by
  refine parallel_of_edit linked' (fun h => ?_) (fun edited => (OptionalField.single edited).symm)
    (fun full aliases size attributes mem _ => sizes full aliases size attributes mem) ?_
  · exact (resolve_edited conserves_optionalField one linked once h.read h.edited.flip).flip
  · intro r w edited read written
    obtain ⟨isError, full, aliases, before, after, field, default, -⟩ := edited
    have tidy := linked'.tidy _ written
    refine .record (.inl rfl) (fieldsRead_original (fun f mem => ?_) tidy.2 default)
    exact ⟨Form.type_mem_nodes read mem, Form.type_mem_nodes written (listed_of_rest mem), .inl rfl⟩

/-- A schema with a further field reads the one without it. -/
theorem reads_inserted (sizes : SizesEqual small) : Reads large small large small :=
  (parallel_inserted one linked linked' once sizes).reads
    ⟨large.self_mem_nodes, small.self_mem_nodes, .inr one⟩

/-- A schema reads the one with a further field. -/
theorem reads_original (sizes : SizesEqual small) : Reads small large small large :=
  (parallel_original one linked linked' once sizes).reads
    ⟨small.self_mem_nodes, large.self_mem_nodes, .inr one.flip⟩

end

end AvroRegistry.Compatibility
