import AvroRegistry.Proofs.Compatibility.Grown

/-!
# Edits that keep a check empty

A reader may be given a further branch in a union, further symbols and defaults; a writer may lose a
branch of a union and symbols, and a field of it may be given a default. None of these edits takes
anything from what the reader reads (`reads_relaxed`, `reads_narrowed`), so a check that found
nothing finds nothing after any of them, as long as the edited schema is linked. Which branch of a
union is tried first, and what has been met by then, does not matter: a check finds what the rules
of resolution say.
-/

namespace AvroRegistry.Compatibility

open Schema (Form FieldHead)

/-! ## The edits -/

/-- A field of a record is given a default. -/
inductive FieldDefault : Form → Form → Prop where
  | given (isError : Bool) (full : String) (aliases : List Json)
      (before after : List (FieldHead × Form)) (head : FieldHead) (type : Form) (default : Json) :
      FieldDefault (.record isError full aliases (before ++ (head, type) :: after))
        (.record isError full aliases
          (before ++ ({ head with default := some default }, type) :: after))

/-- An edit that lets a reader read more. -/
inductive Relaxing : Form → Form → Prop where
  /-- A branch is put into a union. -/
  | branch (before after : List Form) (branch : Form) :
      Relaxing (.union (before ++ after)) (.union (before ++ branch :: after))
  /-- Symbols are added to an enum. -/
  | symbols (full : String) (aliases : List Json) (default : Option Json)
      {symbols symbols' : List Json} (kept : symbols ⊆ symbols') :
      Relaxing (.enumeration full aliases symbols default)
        (.enumeration full aliases symbols' default)
  /-- A field is given a default. -/
  | field {a b : Form} (given : FieldDefault a b) : Relaxing a b
  /-- An enum is given a default. -/
  | enumeration (full : String) (aliases symbols : List Json) (before : Option Json)
      (default : Json) :
      Relaxing (.enumeration full aliases symbols before)
        (.enumeration full aliases symbols (some default))

/-- An edit that leaves a writer less to write. -/
inductive Narrowing : Form → Form → Prop where
  /-- A field is given a default. -/
  | field {a b : Form} (given : FieldDefault a b) : Narrowing a b
  /-- A branch is taken out of a union. -/
  | branch (before after : List Form) (branch : Form) :
      Narrowing (.union (before ++ branch :: after)) (.union (before ++ after))
  /-- Symbols are taken from an enum. -/
  | symbols (full : String) (aliases : List Json) (default : Option Json)
      {symbols symbols' : List Json} (kept : symbols' ⊆ symbols) :
      Narrowing (.enumeration full aliases symbols default)
        (.enumeration full aliases symbols' default)

/-! ## What the edits keep -/

/-- A default changes nothing but the type that the field is in. -/
theorem FieldDefault.parts {a b : Form} (given : FieldDefault a b) {c : Form} :
    (c ∈ a.nodes → c = a ∨ c ∈ b.nodes) ∧ (c ∈ b.nodes → c = b ∨ c ∈ a.nodes) := by
  obtain ⟨isError, full, aliases, before, after, head, type, default⟩ := given
  simp only [Form.nodes_record, List.mem_cons, List.flatMap_append, List.flatMap_cons]
  tauto

theorem union_parts {before after : List Form} (branch : Form) {c : Form}
    (mem : c ∈ (Form.union (before ++ after)).nodes) :
    c = .union (before ++ after) ∨ c ∈ (Form.union (before ++ branch :: after)).nodes := by
  simp only [Form.nodes_union, List.mem_cons, List.flatMap_append, List.flatMap_cons,
    List.mem_append] at mem ⊢
  tauto

theorem conserves_relaxing : Conserves Relaxing where
  source := by
    intro a b edited n
    cases edited with
    | field given => cases given; simp
    | _ => simp
  target := by
    intro a b edited n
    cases edited with
    | field given => cases given; simp
    | _ => simp
  defines := by
    intro a b edited
    cases edited with
    | field given => cases given; rfl
    | _ => rfl
  parts := by
    intro a b edited c mem
    cases edited with
    | branch before after branch => exact union_parts branch mem
    | field given => exact given.parts.1 mem
    | _ => exact .inl (List.mem_singleton.1 mem)

theorem conserves_narrowing : Conserves (flip Narrowing) where
  source := by
    intro a b edited n
    cases edited with
    | field given => cases given; simp
    | _ => simp
  target := by
    intro a b edited n
    cases edited with
    | field given => cases given; simp
    | _ => simp
  defines := by
    intro a b edited
    cases edited with
    | field given => cases given; rfl
    | _ => rfl
  parts := by
    intro a b edited c mem
    cases edited with
    | branch before after branch => exact union_parts branch mem
    | field given => exact given.parts.2 mem
    | _ => exact .inl (List.mem_singleton.1 mem)

/-! ## Growing by an edit -/

section

variable {a b root : Form} {edit : Form → Form → Prop}

theorem grown_branch {heads : FieldHead → FieldHead → Prop} (before after : List Form)
    (branch : Form) (known : ∀ c ∈ directParts (.union (before ++ after)), c ∈ root.nodes) :
    Grown heads (fun c d => c ∈ root.nodes ∧ Edited edit c d) (.union (before ++ after))
      (.union (before ++ branch :: after)) := by
  refine .union fun c mem => ⟨c, ?_, known c mem, .inl rfl⟩
  rw [List.mem_append, List.mem_cons]
  exact (List.mem_append.1 mem).imp_right .inr

/-- A record of which one field is described otherwise. -/
theorem grown_record {heads : FieldHead → FieldHead → Prop} (same : ∀ head, heads head head)
    (isError : Bool) (full : String) (aliases : List Json) (before after : List (FieldHead × Form))
    {head head' : FieldHead} (changed : heads head head') (type : Form)
    (known : ∀ c ∈ directParts (.record isError full aliases (before ++ (head, type) :: after)),
      c ∈ root.nodes) :
    Grown heads (fun c d => c ∈ root.nodes ∧ Edited edit c d)
      (.record isError full aliases (before ++ (head, type) :: after))
      (.record isError full aliases (before ++ (head', type) :: after)) := by
  refine .record isError full aliases (forall₂_at (fun f mem => ?_) ?_)
  · refine ⟨same f.1, known f.2 (List.mem_map_of_mem ?_), .inl rfl⟩
    simp only [List.mem_append, List.mem_cons] at mem ⊢
    tauto
  · exact ⟨changed, known type (by simp [directParts]), .inl rfl⟩

theorem grown_relaxing (edited : Relaxing a b) (known : ∀ c ∈ directParts a, c ∈ root.nodes) :
    Grown ReaderHead (fun c d => c ∈ root.nodes ∧ Edited edit c d) a b := by
  cases edited with
  | branch before after branch => exact grown_branch before after branch known
  | symbols full aliases default kept => exact .enumeration full aliases kept id
  | enumeration full aliases symbols before default =>
    exact .enumeration full aliases (List.Subset.refl symbols) fun _ => rfl
  | field given =>
    obtain ⟨isError, full, aliases, before, after, head, type, default⟩ := given
    exact grown_record (fun _ => ⟨rfl, rfl, id⟩) isError full aliases before after
      ⟨rfl, rfl, fun _ => rfl⟩ type known

theorem grown_narrowing (edited : flip Narrowing a b)
    (known : ∀ c ∈ directParts a, c ∈ root.nodes) :
    Grown WriterHead (fun c d => c ∈ root.nodes ∧ Edited edit c d) a b := by
  cases edited with
  | branch before after branch => exact grown_branch before after branch known
  | symbols full aliases default kept => exact .enumeration full aliases kept id
  | field given =>
    obtain ⟨isError, full, aliases, before, after, head, type, default⟩ := given
    exact grown_record (fun _ => ⟨rfl, id⟩) isError full aliases before after
      ⟨rfl, fun _ => rfl⟩ type known

end

/-! ## Schemas -/

section

variable {reader writer reader' writer' : Form}

/-- What a schema reads is read after a relaxing edit of it. -/
theorem reads_relaxed (one : OneEdit Relaxing reader reader') (linked : Linked reader)
    (once : reader'.definedNames.Nodup) (reads : Reads reader writer reader writer) :
    Reads reader' writer reader' writer := by
  refine ⟨fun a' b => ∃ a, (a ∈ reader.nodes ∧ Edited Relaxing a a') ∧ Reads reader writer a b,
    ?_, reader, ⟨reader.self_mem_nodes, .inr one⟩, reads⟩
  rintro a' b ⟨a, ⟨node, edited⟩, holds⟩
  have stands := resolve_edited conserves_relaxing one linked once node edited
  have node : reader.resolve a ∈ reader.nodes := Form.resolve_mem_nodes node
  have grown := grown_of_edited (fun _ => ⟨rfl, rfl, id⟩) grown_relaxing node stands
  refine ((reads_iff reader writer a b).1 holds).of_grown_reader grown ?_ ?_
  · exact fun part read => ⟨_, part, read⟩
  · exact fun d read => ⟨_, ⟨node, stands⟩, read⟩

/-- What reads a schema reads it after a narrowing edit. -/
theorem reads_narrowed (one : OneEdit Narrowing writer writer') (linked : Linked writer')
    (once : writer.definedNames.Nodup) (reads : Reads reader writer reader writer) :
    Reads reader writer' reader writer' := by
  refine ⟨fun a b => ∃ b', (b ∈ writer'.nodes ∧ Edited (flip Narrowing) b b') ∧
    Reads reader writer a b', ?_, writer, ⟨writer'.self_mem_nodes, .inr one.flip⟩, reads⟩
  rintro a b ⟨b', ⟨node, edited⟩, holds⟩
  have stands := resolve_edited conserves_narrowing one.flip linked once node edited
  have node : writer'.resolve b ∈ writer'.nodes := Form.resolve_mem_nodes node
  have grown := grown_of_edited (fun _ => ⟨rfl, id⟩) grown_narrowing node stands
  refine ((reads_iff reader writer a b').1 holds).of_grown_writer grown (linked.tidy _ node) ?_ ?_
  · exact fun part read => ⟨_, part, read⟩
  · exact fun c read => ⟨_, ⟨node, stands⟩, read⟩

end

/-! ## Checks -/

/-- A check of two canonical schemas that found nothing finds nothing after a relaxing edit of the
reader or a narrowing edit of the writer that leaves a linked schema, and it gives a result if the
aliases of the reader are texts. -/
theorem relaxed_passes {schemaR schemaW : Json} {r w : Schema.Canonical}
    (okR : Schema.canonicalize schemaR = .ok r) (okW : Schema.canonicalize schemaW = .ok w)
    (textual : Textual r.form) (onceR : r.form.definedNames.Nodup)
    (onceW : w.form.definedNames.Nodup) (passes : checkReaderWriter r.value w.value = .ok []) :
    (∀ r', OneEdit Relaxing r.form r' → Linked r' → r'.definedNames.Nodup →
      (∀ found, checkReaderWriter r'.toJson w.value = .ok found → found = []) ∧
        (Textual r' → checkReaderWriter r'.toJson w.value = .ok [])) ∧
    ∀ w', OneEdit Narrowing w.form w' → Linked w' →
      checkReaderWriter r.value w'.toJson = .ok [] := by
  have linkedR := linked_of_canonicalize okR
  have linkedW := linked_of_canonicalize okW
  have reads := reads_of_checkReaderWriter linkedR linkedW onceR onceW passes
  constructor
  · intro r' one linked once
    have relaxed := reads_relaxed one linkedR once reads
    exact ⟨fun found => eq_nil_of_reads linked linkedW relaxed,
      fun textual' => checkReaderWriter_of_reads linked linkedW textual' relaxed⟩
  · intro w' one linked
    exact checkReaderWriter_of_reads linkedR linked textual
      (reads_narrowed one linked onceW reads)

/-- The record of a list, with some fields and some types for what follows a node. -/
def listed (fields : List (FieldHead × Form)) (branches : List Form) : Form :=
  .record false "list.Node" [] (fields ++ [(⟨.str "next", none, [], none⟩, .union branches)])

/-- The label of a node. -/
def label : FieldHead × Form := (⟨.str "label", some (.str ""), [], none⟩, .name "string")

/-- A reader of labelled lists may come to read a text after a node, and a writer of lists may come
to write nothing but nodes. -/
theorem listed_relaxed :
    checkReaderWriter labelledForm.toJson linkedForm.toJson = .ok [] ∧
      checkReaderWriter (listed [label] [.name "string", .name "null", .name "list.Node"]).toJson
        linkedForm.toJson = .ok [] ∧
      checkReaderWriter labelledForm.toJson (listed [] [.name "list.Node"]).toJson = .ok [] := by
  have canonical : ∀ form ∈ [labelledForm, linkedForm, listed [] [.name "list.Node"],
        listed [label] [.name "string", .name "null", .name "list.Node"]],
      Schema.submitted form.toJson = .ok (form.toJson.encode Json.spaced, form.toJson) ∧
        Schema.canonicalize form.toJson = .ok ⟨form, form.toJson.encode Json.spaced⟩ := by
    simp only [List.forall_mem_cons]
    refine ⟨?_, ?_, ?_, ?_, by simp⟩
    all_goals
      exact ⟨Schema.submitted_value (Json.readable_of_exact (by decide)) rfl rfl,
        canonicalize_eq (Schema.submitted_value (Json.readable_of_exact (by decide)) rfl rfl) rfl
          rfl⟩
  simp only [List.forall_mem_cons] at canonical
  obtain ⟨⟨givenR, okR⟩, ⟨-, okW⟩, ⟨-, okW'⟩, ⟨givenR', okR'⟩, -⟩ := canonical
  have textual := textual_of_unaliased givenR okR (by decide)
  have textual' := textual_of_unaliased givenR' okR' (by decide)
  obtain ⟨relaxed, narrowed⟩ := relaxed_passes okR okW textual (by decide) (by decide) rfl
  refine ⟨rfl, (relaxed _ ?_ (linked_of_canonicalize okR') (by decide)).2 textual',
    narrowed _ ?_ (linked_of_canonicalize okW')⟩
  · exact .field false "list.Node" [] [label] [] ⟨.str "next", none, [], none⟩
      (.here (.branch [] [.name "null", .name "list.Node"] (.name "string")))
  · exact .field false "list.Node" [] [] [] ⟨.str "next", none, [], none⟩
      (.here (.branch [] [.name "list.Node"] (.name "null")))

/-- A union of a box reads that box. With a further branch in front that has an alias which is a
list, the schema is accepted again, and the check breaks down. -/
theorem relaxed_breaks_down :
    ∃ r w r' : Schema.Canonical,
      Schema.canonicalize (.arr [boxValue "U" "x" (.str "int")]) = .ok r ∧
      Schema.canonicalize (boxValue "U" "x" (.str "int")) = .ok w ∧
      Schema.canonicalize (.arr [aliasedValue "T" (.arr [.str "x"]),
        boxValue "U" "x" (.str "int")]) = .ok r' ∧
      Textual r.form ∧ Textual w.form ∧ r.form.definedNames.Nodup ∧ w.form.definedNames.Nodup ∧
      checkReaderWriter r.value w.value = .ok [] ∧ OneEdit Relaxing r.form r'.form ∧
      r'.form.definedNames.Nodup ∧ checkReaderWriter r'.value w.value = .error .noAttribute := by
  have givenR := Schema.submitted_value (v := .arr [boxValue "U" "x" (.str "int")])
    (Json.readable_of_exact (by decide)) rfl rfl
  have givenW := Schema.submitted_value (v := boxValue "U" "x" (.str "int"))
    (Json.readable_of_exact (by decide)) rfl rfl
  have givenR' := Schema.submitted_value (v := .arr [aliasedValue "T" (.arr [.str "x"]),
    boxValue "U" "x" (.str "int")]) (Json.readable_of_exact (by decide)) rfl rfl
  have okR : Schema.canonicalize (.arr [boxValue "U" "x" (.str "int")]) =
      .ok ⟨.union [box "U" "x" (.name "int")],
        (Json.arr [boxValue "U" "x" (.str "int")]).encode Json.spaced⟩ :=
    canonicalize_eq givenR rfl rfl
  have okW : Schema.canonicalize (boxValue "U" "x" (.str "int")) =
      .ok ⟨box "U" "x" (.name "int"), (boxValue "U" "x" (.str "int")).encode Json.spaced⟩ :=
    canonicalize_eq givenW rfl rfl
  have normal : Schema.normalize (.arr [aliasedValue "T" (.arr [.str "x"]),
      boxValue "U" "x" (.str "int")]) =
      .ok (.union [aliased "T" (.arr [.str "x"]), box "U" "x" (.name "int")]) := by
    have first : Schema.normalizeType "" (aliasedValue "T" (.arr [.str "x"])) [] =
        .ok (aliased "T" (.arr [.str "x"]), ["T"]) := normalizeType_aliased (by decide) rfl []
    have rest : Schema.normalizeBranches "" [boxValue "U" "x" (.str "int")] ["T"] =
        .ok ([box "U" "x" (.name "int")], ["U", "T"]) := rfl
    show (Schema.normalizeType "" (.arr [aliasedValue "T" (.arr [.str "x"]),
      boxValue "U" "x" (.str "int")]) []).map (·.1) = _
    rw [Schema.normalizeType, Run.bind_of_ok
      (Schema.normalizeBranches_cons_eq_ok.2 ⟨_, _, _, first, rest, rfl⟩)]
    · rfl
    · simp
  have okR' := canonicalize_eq givenR' rfl normal
  have textualR := textual_of_unaliased givenR okR (by decide)
  have textualW := textual_of_unaliased givenW okW (by decide)
  exact ⟨_, _, _, okR, okW, okR', textualR, textualW, by decide, by decide, rfl,
    .here (.branch [] [box "U" "x" (.name "int")] _), by decide, rfl⟩

end AvroRegistry.Compatibility
