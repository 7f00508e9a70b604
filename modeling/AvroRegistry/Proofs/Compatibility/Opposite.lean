import AvroRegistry.Proofs.Compatibility.Differences
import AvroRegistry.Proofs.Compatibility.Reflexive
import AvroRegistry.Proofs.Compatibility.Returning

/-!
# A check and its opposite

On trees a check leaves the marks that `differences` reads off them (`checkReaderWriter_marks`). The
two go through the fields in different ways. A check looks up the fields of the reader in a table of
those of the writer and then goes through that table for fields that were not matched; and it skips
a pair of records that has been met. Names differ within a record, so a look-up finds the one field
of the name, and a type is named once, so that no pair is ever skipped: what has been met by the time
a type is checked is of names that it does not define (`Tells`).

So a check and the one with reader and writer exchanged leave the same marks, those of fields with
the sides exchanged (`backward_mirrors_forward`).
-/

namespace AvroRegistry.Compatibility

open Schema (Form FieldHead unqualified)

/-! ## Looking up a field by its name -/

section

variable {fields others : List (FieldHead × Form)} {name : Json} {f g : FieldHead × Form}

theorem name_of_fieldNamed (texts : ∀ g ∈ others, ∃ s, g.1.name = .str s)
    (found : fieldNamed others name = some g) : g ∈ others ∧ g.1.name = name := by
  have mem := List.mem_of_find?_eq_some found
  have same : g.1.name.same name = true :=
    List.find?_some (p := fun g : FieldHead × Form => g.1.name.same name) found
  obtain ⟨s, text⟩ := texts g mem
  rw [text, Json.same_str_iff] at same
  exact ⟨mem, text.trans same.symm⟩

/-- Of the fields of a record the one of a name is all that is found under it. -/
theorem bind_named {α : Type} (differ : Form.NamesDiffer others)
    (texts : ∀ g ∈ others, ∃ s, g.1.name = .str s) (name : Json)
    (h : FieldHead × Form → Multiset α) :
    ((others : Multiset (FieldHead × Form)).bind fun g =>
      if g.1.name.same name then h g else 0) = ((fieldNamed others name).map h).getD 0 := by
  obtain ⟨keys, differ⟩ := differ
  induction others with
  | nil => rfl
  | cons k rest ih =>
    obtain ⟨apart, differ⟩ := List.pairwise_cons.1 differ
    obtain ⟨text, texts⟩ := List.forall_mem_cons.1 texts
    rw [← Multiset.cons_coe, Multiset.cons_bind]
    by_cases same : k.1.name.same name = true
    · have found : fieldNamed (k :: rest) name = some k := List.find?_cons_of_pos same
      obtain ⟨s, is⟩ := text
      have named : name = .str s := (Json.same_str_iff s name).1 (is ▸ same)
      have alone : ∀ g ∈ (rest : Multiset (FieldHead × Form)),
          (if g.1.name.same name then h g else 0) = (0 : Multiset α) := by
        intro g mem
        have other := apart g mem
        obtain ⟨t, is'⟩ := texts g mem
        refine if_neg fun there => ?_
        rw [is', Json.same_str_iff, named] at there
        rw [is, is', ← there, Json.same_refl rfl] at other
        cases other
      rw [if_pos same, found, Multiset.bind_congr alone, Multiset.bind_zero, add_zero]
      rfl
    · have found : fieldNamed (k :: rest) name = fieldNamed rest name :=
        List.find?_cons_of_neg same
      rw [if_neg same, zero_add, found]
      exact ih texts (fun g mem => keys g (List.mem_cons_of_mem _ mem)) differ

theorem shared_cons (differ : Form.NamesDiffer others)
    (texts : ∀ g ∈ others, ∃ s, g.1.name = .str s) (path : String) :
    shared (f :: fields) others path =
      ((fieldNamed others f.1.name).map fun g => differences f.2 g.2 (typePath path f)).getD 0 +
        shared fields others path := by
  obtain ⟨head, type⟩ := f
  rw [shared, bind_named differ texts]

/-- A field without aliases is looked up under its name. -/
theorem counterpart_unaliased (key : f.1.name.isKey = true) (unaliased : f.1.aliases = []) :
    counterpart (others.map entry) (fieldJson f) =
      .ok ((fieldNamed others f.1.name).map fieldJson) := by
  rw [counterpart_eq f key, unaliased]
  cases fieldNamed others f.1.name with
  | none => rfl
  | some g => rfl

theorem counterpart?_unaliased (unaliased : f.1.aliases = []) :
    counterpart? others f.1 = fieldNamed others f.1.name := by
  rw [counterpart?, unaliased, List.findSome?_nil, Option.or_none]

/-- A field is read by one of those without aliases if one of them has its name. -/
theorem read_iff_named (differ : Form.NamesDiffer others)
    (unaliased : ∀ f ∈ fields, f.1.aliases = []) (texts : ∀ f ∈ fields, ∃ s, f.1.name = .str s)
    (texts' : ∀ g ∈ others, ∃ s, g.1.name = .str s) (mem : g ∈ others) :
    (∃ f ∈ fields, counterpart? others f.1 = some g) ↔
      (fieldNamed fields g.1.name).isSome = true := by
  constructor
  · rintro ⟨f, inside, found⟩
    rw [counterpart?_unaliased (unaliased f inside)] at found
    refine List.find?_isSome.2 ⟨f, inside, ?_⟩
    rw [(name_of_fieldNamed texts' found).2]
    exact (same_name_iff (texts f inside)).2 rfl
  · intro found
    obtain ⟨f, named⟩ := Option.isSome_iff_exists.1 found
    obtain ⟨inside, name⟩ := name_of_fieldNamed texts named
    refine ⟨f, inside, ?_⟩
    rw [counterpart?_unaliased (unaliased f inside), name]
    exact fieldNamed_self differ mem

end

/-! ## What a step of the check leaves -/

/-- From pairs met of other names than its own, a step gives what leaves given marks, and meets
pairs of its own names only. -/
def Tells {α : Type} (leaves : α → Multiset (Mark × String)) (step : Checking α)
    (own : List String) (places : Multiset (Mark × String)) : Prop :=
  ∀ met a met', (∀ pair ∈ met, pair.1 ∉ own) → step met = .ok (a, met') →
    leaves a = places ∧ ∀ pair ∈ met', pair ∈ met ∨ pair.1 ∈ own

section

variable {α β : Type} {leaves : α → Multiset (Mark × String)}
  {leaves' : β → Multiset (Mark × String)} {own own' : List String}
  {places places' : Multiset (Mark × String)} {path : String}

theorem tells_pure {a : α} (leave : leaves a = places) :
    Tells leaves (pureStep (.ok a)) own places := by
  intro met found met' _ ok
  cases ok
  exact ⟨leave, fun _ => .inl⟩

theorem Tells.mono {x : Checking α} (tells : Tells leaves x own places) (sub : own ⊆ own') :
    Tells leaves x own' places := by
  intro met a met' fresh ok
  obtain ⟨told, new⟩ := tells met a met' (fun pair mem here => fresh pair mem (sub here)) ok
  exact ⟨told, fun pair mem => (new pair mem).imp_right (@sub _)⟩

/-- What the first step has met is foreign to the second one, if they have different names of their
own. -/
theorem Tells.bind {x : Checking α} {f : α → Checking β} (first : Tells leaves x own places)
    (apart : own.Disjoint own') (next : ∀ a, leaves a = places → Tells leaves' (f a) own' places') :
    Tells leaves' (x >>= f) (own ++ own') places' := by
  intro met b met' fresh ok
  obtain ⟨a, between, ran, ok⟩ := Run.bind_eq_ok.1 ok
  obtain ⟨told, new⟩ := first met a between
    (fun pair mem here => fresh pair mem (List.mem_append_left _ here)) ran
  have foreign : ∀ pair ∈ between, pair.1 ∉ own' := by
    intro pair mem there
    rcases new pair mem with old | here
    · exact fresh pair old (List.mem_append_right _ there)
    · exact apart here there
  obtain ⟨told', new'⟩ := next a told between b met' foreign ok
  refine ⟨told', fun pair mem => ?_⟩
  rcases new' pair mem with early | there
  · exact (new pair early).imp_right (List.mem_append_left _)
  · exact .inr (List.mem_append_right _ there)

/-- A step after which nothing more is met. -/
theorem Tells.last {x : Checking α} {f : α → Checking β} (first : Tells leaves x own places)
    (next : ∀ a, leaves a = places → Tells leaves' (f a) [] places') :
    Tells leaves' (x >>= f) own places' := by
  rw [← List.append_nil own]
  exact first.bind (List.disjoint_nil_right own) next

theorem nameVerdict_unaliased (n m : String) :
    nameVerdict n [] m = .ok (decide (unqualified n = unqualified m)) := by
  unfold nameVerdict
  split
  · next same => rw [decide_eq_true same]
  · next differ =>
    rw [decide_eq_false differ]
    rfl

/-- A step that begins with names leaves theirs if they do not match. -/
theorem Tells.named {rest : Checking (List Violation)} (tells : Tells marks rest own places)
    {r w : Form} {n m : String} (tidyR : r.Tidy) (tidyW : w.Tidy)
    (reader : r.definedName? = some n) (writer : w.definedName? = some m)
    (unaliased : aliasesOf r = []) :
    Tells marks (checkNamed r.toJson w.toJson path rest) own (ifNamed n m path places) := by
  unfold checkNamed ifNamed
  rw [namesMatch_named tidyR tidyW reader writer, unaliased, nameVerdict_unaliased, pureStep_bind]
  by_cases same : unqualified n = unqualified m
  · rw [if_pos same, if_pos (decide_eq_true same)]
    exact tells
  · rw [if_neg same, if_neg (by simpa using same)]
    exact tells_pure rfl

end

/-! ## Fields -/

section

variable {step : Json → Json → String → Checking (List Violation)} {path : String}
  {reader writer : List (FieldHead × Form)}

theorem lone_cons_found {f g : FieldHead × Form} {fields others : List (FieldHead × Form)}
    (named : fieldNamed others f.1.name = some g) (m : Mark) (path : String) :
    lone m path (f :: fields) others = lone m path fields others := by
  unfold lone
  rw [List.filter_cons_of_neg (by simp [named])]

theorem lone_cons_missing {f : FieldHead × Form} {fields others : List (FieldHead × Form)}
    (named : fieldNamed others f.1.name = none) (m : Mark) (path : String) :
    lone m path (f :: fields) others =
      (if f.1.default.isSome then 0 else {(m, fieldPath path f)}) + lone m path fields others := by
  unfold lone
  cases fallback : f.1.default with
  | some v =>
    rw [List.filter_cons_of_neg (by simp [fallback])]
    exact (zero_add _).symm
  | none =>
    rw [List.filter_cons_of_pos (by simp [named, fallback])]
    rfl

/-- A check of fields leaves the marks of those that both records have and of those that the writer
does not have. The induction is on the fields left: what has been met is of names that none of them
defines. -/
theorem checkFields_tells (keys : ∀ f ∈ reader, f.1.name.isKey = true)
    (unaliased : ∀ f ∈ reader, f.1.aliases = []) (differ : Form.NamesDiffer writer)
    (texts : ∀ g ∈ writer, ∃ s, g.1.name = .str s)
    (each : ∀ f ∈ reader, ∀ g ∈ writer, ∀ place,
      Tells marks (step f.2.toJson g.2.toJson place) f.2.definedNames (differences f.2 g.2 place))
    (once : (reader.flatMap fun f => f.2.definedNames).Nodup) :
    Tells (fun result => marks result.1)
      (checkFields step path (writer.map entry) (reader.map fieldJson))
      (reader.flatMap fun f => f.2.definedNames)
      (shared reader writer path + lone .missing path reader writer) := by
  induction reader with
  | nil => exact tells_pure rfl
  | cons f rest ih =>
    obtain ⟨key, keys⟩ := List.forall_mem_cons.1 keys
    obtain ⟨unaliasedHere, unaliased⟩ := List.forall_mem_cons.1 unaliased
    obtain ⟨eachHere, each⟩ := List.forall_mem_cons.1 each
    rw [List.flatMap_cons] at once ⊢
    obtain ⟨-, onceRest, apart⟩ := List.nodup_append'.1 once
    have later := ih keys unaliased each onceRest
    have looked : counterpart (writer.map entry) (fieldJson f) =
        .ok ((fieldNamed writer f.1.name).map fieldJson) := counterpart_unaliased key unaliasedHere
    rw [List.map_cons, shared_cons differ texts]
    cases named : fieldNamed writer f.1.name with
    | some g =>
      rw [named] at looked
      rw [checkFields_cons_found looked, lone_cons_found named]
      refine (eachHere g (name_of_fieldNamed texts named).1 _).bind apart fun first told => ?_
      refine later.last fun result told' => tells_pure ?_
      show marks (first ++ result.1) = _
      rw [marks_append, told, told', ← add_assoc]
      rfl
    | none =>
      rw [named] at looked
      rw [checkFields_cons_missing looked, lone_cons_missing named]
      refine (later.last fun result told => ?_).mono (List.subset_append_right _ _)
      rw [Option.map_none, Option.getD_none, zero_add]
      split
      · refine tells_pure ?_
        rw [told, zero_add]
      · refine tells_pure ?_
        have first : marks (⟨.readerFieldMissingDefault f.1.name, fieldPath path f, none, none⟩ ::
            result.1) = {(.missing, fieldPath path f)} + marks result.1 := rfl
        exact first.trans (by rw [told]; exact add_left_comm _ _ _)

/-- The removed fields leave the marks of those that the reader does not have. -/
theorem marks_removedFields {matched : List Json}
    (agree : ∀ g ∈ writer, g.1.name.isIn matched = true ↔
      (fieldNamed reader g.1.name).isSome = true) :
    marks (removedFields path matched (writer.map entry)) =
      lone .removed path writer reader := by
  have kept : writer.filter ((fun e : Json × Json =>
      !e.1.isIn matched && (e.2.get? "default").isNone) ∘ entry) =
        writer.filter fun g => (fieldNamed reader g.1.name).isNone && g.1.default.isNone := by
    refine List.filter_congr fun g mem => ?_
    have same : g.1.name.isIn matched = (fieldNamed reader g.1.name).isSome :=
      Bool.eq_iff_iff.2 (agree g mem)
    show (!g.1.name.isIn matched && ((fieldJson g).get? "default").isNone) = _
    rw [same, get?_default, Option.not_isSome]
  unfold removedFields lone marks
  rw [List.filter_map, kept, List.map_map, List.filterMap_map]
  refine congrArg _ ?_
  rw [← List.filterMap_eq_map]
  rfl

end

/-! ## Records -/

theorem definedNames_record (isError : Bool) (full : String) (aliases : List Json)
    (fields : List (FieldHead × Form)) :
    (Form.record isError full aliases fields).definedNames =
      full :: fields.flatMap fun f => f.2.definedNames := by
  unfold Form.definedNames
  rw [Form.nodes_record, List.filterMap_cons_some (show Form.definedName? _ = some full from rfl),
    List.filterMap_flatMap]

/-- A check of two records leaves the marks of their fields: a name of the reader that has not been
met is in no pair that has been met. -/
theorem checkRecord_tells {step : Json → Json → String → Checking (List Violation)}
    {isError isError' : Bool} {n m path : String} {aliases aliases' : List Json}
    {fields fields' : List (FieldHead × Form)} (differ : Form.NamesDiffer fields)
    (differ' : Form.NamesDiffer fields')
    (texts : ∀ f ∈ fields, f.1.aliases = [] ∧ ∃ s, f.1.name = .str s)
    (texts' : ∀ g ∈ fields', ∃ s, g.1.name = .str s)
    (once : (Form.record isError n aliases fields).definedNames.Nodup)
    (each : ∀ f ∈ fields, ∀ g ∈ fields', ∀ place,
      Tells marks (step f.2.toJson g.2.toJson place) f.2.definedNames (differences f.2 g.2 place)) :
    Tells marks (checkRecord step (Form.record isError n aliases fields).toJson
        (Form.record isError' m aliases' fields').toJson path)
      (Form.record isError n aliases fields).definedNames
      (shared fields fields' path + lone .missing path fields fields' +
        lone .removed path fields' fields) := by
  intro met violations met' fresh ok
  rw [definedNames_record] at once fresh ⊢
  obtain ⟨outside, once⟩ := List.nodup_cons.1 once
  have new : (n, m) ∉ met := fun mem => fresh _ mem List.mem_cons_self
  have foreign : ∀ pair ∈ (n, m) :: met, pair.1 ∉ fields.flatMap fun f => f.2.definedNames := by
    refine List.forall_mem_cons.2 ⟨outside, fun pair old here => ?_⟩
    exact fresh pair old (List.mem_cons_of_mem _ here)
  rw [checkRecord_new new differ'] at ok
  obtain ⟨⟨found, names⟩, after, checked, last⟩ := Run.bind_eq_ok.1 ok
  cases last
  obtain ⟨told, metFields⟩ := checkFields_tells differ.keys (fun f mem => (texts f mem).1) differ'
    texts' each once _ _ _ foreign checked
  have told : marks found = _ := told
  constructor
  · rw [marks_append, told, marks_removedFields fun g mem => ?_]
    exact (isIn_matched differ' (checkFields_names differ.keys checked) mem).trans
      (read_iff_named differ' (fun f listed => (texts f listed).1)
        (fun f listed => (texts f listed).2) texts' mem)
  · intro pair mem
    rcases metFields pair mem with here | own
    · rcases List.mem_cons.1 here with rfl | old
      · exact .inr List.mem_cons_self
      · exact .inl old
    · exact .inr (List.mem_cons_of_mem _ own)

/-! ## The whole check -/

section

variable {reader writer : Form}

/-- Types of different kinds have no marks, and primitive types have none. -/
theorem differences_unlike {r w : Form}
    (unlike : kindWord r = kindWord w → (primitive? r).isSome = true) (path : String) :
    differences r w path = 0 := by
  rw [differences.eq_def]
  split
  iterate 5 exact nomatch unlike rfl
  rfl

theorem checkForms_tells (linkedR : Linked reader) (linkedW : Linked writer) (treeR : Tree reader)
    (treeW : Tree writer) (fuel : Nat) :
    ∀ r ∈ reader.nodes, ∀ w ∈ writer.nodes, ∀ path,
      Tells marks (checkForms reader writer fuel r w path) r.definedNames (differences r w path) := by
  induction fuel with
  | zero =>
    intro r _ w _ path met violations met' _ ok
    cases ok
  | succ fuel ih =>
    intro r hr w hw path
    have grounded := linkedR.grounded r hr
    have groundedW := linkedW.grounded w hw
    rw [checkForms_succ, treeR.resolve_eq hr, treeW.resolve_eq hw]
    rw [treeR.resolve_eq hr] at grounded
    rw [treeW.resolve_eq hw] at groundedW
    have tidyR := linkedR.tidy r hr
    have tidyW := linkedW.tidy w hw
    have unaliased := treeR.unaliased hr
    cases pairShape grounded groundedW with
    | writerUnion _ branches => exact absurd ⟨branches, rfl⟩ (treeW.single hw)
    | readerUnion branches _ _ => exact absurd ⟨branches, rfl⟩ (treeR.single hr)
    | arrays c d =>
      rw [checkTypes_arrays, differences]
      exact ih c (Form.items_mem_nodes hr) d (Form.items_mem_nodes hw) _
    | maps c d =>
      rw [checkTypes_maps, differences]
      exact ih c (Form.values_mem_nodes hr) d (Form.values_mem_nodes hw) _
    | records isError isError' n m aliases aliases' fields fields' =>
      rw [checkTypes_records, differences]
      refine Tells.named ?_ tidyR tidyW rfl rfl unaliased
      exact checkRecord_tells tidyR.2 tidyW.2 (treeR.fields hr)
        (fun g mem => (treeW.fields hw g mem).2) (treeR.definedNames_nodup hr)
        fun f hf g hg => ih f.2 (Form.type_mem_nodes hr hf) g.2 (Form.type_mem_nodes hw hg)
    | enums n m aliases aliases' symbols symbols' default default' =>
      rw [checkTypes_enums _ _ _ _ _ _ _ _ tidyR.1 tidyW.1, differences]
      refine Tells.named (tells_pure ?_) tidyR tidyW rfl rfl unaliased
      split
      · rfl
      · rfl
    | fixeds n m aliases aliases' size size' attributes attributes' =>
      rw [checkTypes_fixeds _ _ _ _ _ _ _ _ tidyR tidyW, differences]
      refine Tells.named (tells_pure ?_) tidyR tidyW rfl rfl unaliased
      split
      · rfl
      · rfl
    | primitives _ _ p known primitiveR primitiveW =>
      rw [checkTypes_primitives _ _ known primitiveR primitiveW,
        differences_unlike fun _ => by rw [primitiveR, Option.isSome_some]]
      exact tells_pure rfl
    | apart _ _ plainR plainW differ =>
      obtain ⟨_, _, outcome⟩ := checkTypes_apart
        (check (enter [] reader.nodes) (enter [] writer.nodes) fuel) path grounded groundedW plainR
        plainW differ
      rw [outcome, differences_unlike fun same => absurd same differ]
      refine tells_pure ?_
      split
      · rfl
      · rfl

/-- A tree has no aliases that could be other than texts. -/
theorem Tree.textual (tree : Tree reader) : Textual reader where
  types node mem := by
    rw [tree.unaliased mem]
    nofun
  fields isError full aliases fields mem f inside := by
    rw [(tree.fields mem f inside).1]
    nofun

/-- A check of two trees leaves the marks that are read off them. -/
theorem checkReaderWriter_marks (linkedR : Linked reader) (linkedW : Linked writer)
    (treeR : Tree reader) (treeW : Tree writer) :
    ∃ violations, checkReaderWriter reader.toJson writer.toJson = .ok violations ∧
      marks violations = differences reader writer "" := by
  obtain ⟨violations, ok⟩ := checkReaderWriter_total linkedR linkedW treeR.textual
  refine ⟨violations, ok, ?_⟩
  obtain ⟨pairs, checked⟩ := checked_of_checkReaderWriter linkedR linkedW ok
  exact (checkForms_tells linkedR linkedW treeR treeW _ reader reader.self_mem_nodes writer
    writer.self_mem_nodes "" [] violations pairs (by simp) checked).1

end

/-- The sizes in a canonical form have members told apart by their keys, as what it was read from
does. -/
theorem sizesKeyed_of_canonicalize {schema : Json} {c : Schema.Canonical}
    (ok : Schema.canonicalize schema = .ok c) : SizesKeyed c.form := by
  obtain ⟨raw, v, given⟩ := Schema.exists_submitted ok
  obtain ⟨-, normalized⟩ := canonicalize_eq_ok given ok
  obtain ⟨after, made⟩ := normalize_eq normalized
  intro full aliases size attributes mem w part
  have inside := Schema.sizesAmong_parts made full aliases size attributes mem
  exact Json.keyed_of_plain ((Schema.submitted_plain given).part inside w part)

/-- The two directions of a check mirror each other. For two trees in canonical form both give a
result; the fields that are missing without a default in one direction are those that were removed
without one in the other, each at the same paths; and names and sizes do not match at the same paths
in both. -/
theorem backward_mirrors_forward {schemaA schemaB : Json} {a b : Schema.Canonical}
    (okA : Schema.canonicalize schemaA = .ok a) (okB : Schema.canonicalize schemaB = .ok b)
    (treeA : Tree a.form) (treeB : Tree b.form) :
    ∃ backward forward, checkReaderWriter a.value b.value = .ok backward ∧
      checkReaderWriter b.value a.value = .ok forward ∧
      pathsOf "READER_FIELD_MISSING_DEFAULT_VALUE" backward =
        pathsOf "WRITER_FIELD_REMOVED_WITHOUT_DEFAULT" forward ∧
      pathsOf "WRITER_FIELD_REMOVED_WITHOUT_DEFAULT" backward =
        pathsOf "READER_FIELD_MISSING_DEFAULT_VALUE" forward ∧
      pathsOf "NAME_MISMATCH" backward = pathsOf "NAME_MISMATCH" forward ∧
      pathsOf "FIXED_SIZE_MISMATCH" backward = pathsOf "FIXED_SIZE_MISMATCH" forward := by
  have linkedA := linked_of_canonicalize okA
  have linkedB := linked_of_canonicalize okB
  obtain ⟨backward, checked, found⟩ := checkReaderWriter_marks linkedA linkedB treeA treeB
  obtain ⟨forward, checked', found'⟩ := checkReaderWriter_marks linkedB linkedA treeB treeA
  have turned : marks forward = (marks backward).map opposite := by
    rw [found, found']
    exact (differences_opposite treeA treeB (sizesKeyed_of_canonicalize okA)
      (sizesKeyed_of_canonicalize okB) a.form a.form.self_mem_nodes b.form b.form.self_mem_nodes
      "").symm
  have paths (m : Mark) : pathsOf m.turned.kind backward = pathsOf m.kind forward := by
    rw [pathsOf_kind, pathsOf_kind, turned, paths_opposite]
  exact ⟨backward, forward, checked, checked', paths .removed, paths .missing, paths .name,
    paths .size⟩

/-- The value of an order with a key of a size, a party of some type, and lines with one field. -/
def orderValue (party part : String) (size : Int) : Json :=
  .obj [("type", .str "record"), ("name", .str "Order"), ("fields", .arr [
    .obj [("name", .str "key"), ("type", .obj [("type", .str "fixed"), ("name", .str "Key"),
      ("size", .int size)])],
    .obj [("name", .str "by"), ("type", .obj [("type", .str "enum"), ("name", .str party),
      ("symbols", .arr [.str "A"])])],
    .obj [("name", .str "lines"), ("type", .obj [("type", .str "array"),
      ("items", boxValue "Line" part (.str "int"))])]])]

/-- That order. -/
def order (party part : String) (size : Int) : Form :=
  .record false "Order" [] [
    (⟨.str "key", none, [], none⟩, .fixed "Key" [] (.int size) []),
    (⟨.str "by", none, [], none⟩, .enumeration party [] [.str "A"] none),
    (⟨.str "lines", none, [], none⟩, .array (box "Line" part (.name "int")))]

theorem tree_order {party : String} (other : party ∉ ["Order", "Key", "Line"]) (part : String)
    (size : Int) : Tree (order party part size) := by
  constructor
  · have nodes : (order party part size).nodes = [order party part size,
      .fixed "Key" [] (.int size) [], .enumeration party [] [.str "A"] none,
      .array (box "Line" part (.name "int")), box "Line" part (.name "int"), .name "int"] := rfl
    have primitive : Schema.isPrimitive "int" = true := by decide
    rw [nodes]
    simp only [List.forall_mem_cons, order, box, Simple, primitive]
    simp
  · have names : (order party part size).definedNames = ["Order", "Key", party, "Line"] := rfl
    rw [names]
    simp only [List.mem_cons, List.not_mem_nil, or_false, not_or] at other
    simp [other, Ne.symm other.1, Ne.symm other.2.1]

theorem orders_mirror :
    ∃ backward forward,
      checkReaderWriter (order "Buyer" "count" 4).toJson (order "Seller" "price" 8).toJson =
        .ok backward ∧
      checkReaderWriter (order "Seller" "price" 8).toJson (order "Buyer" "count" 4).toJson =
        .ok forward ∧
      pathsOf "READER_FIELD_MISSING_DEFAULT_VALUE" backward =
        {"/fields/lines/type/items/fields/count"} ∧
      pathsOf "WRITER_FIELD_REMOVED_WITHOUT_DEFAULT" forward =
        {"/fields/lines/type/items/fields/count"} ∧
      pathsOf "WRITER_FIELD_REMOVED_WITHOUT_DEFAULT" backward =
        {"/fields/lines/type/items/fields/price"} ∧
      pathsOf "READER_FIELD_MISSING_DEFAULT_VALUE" forward =
        {"/fields/lines/type/items/fields/price"} ∧
      pathsOf "NAME_MISMATCH" forward = {"/fields/by/type/name"} ∧
      pathsOf "FIXED_SIZE_MISMATCH" forward = {"/fields/key/type/size"} := by
  have okA : Schema.canonicalize (orderValue "Buyer" "count" 4) =
      .ok ⟨order "Buyer" "count" 4, (orderValue "Buyer" "count" 4).encode Json.spaced⟩ :=
    canonicalize_eq (Schema.submitted_value (Json.readable_of_exact (by decide)) rfl rfl) rfl rfl
  have okB : Schema.canonicalize (orderValue "Seller" "price" 8) =
      .ok ⟨order "Seller" "price" 8, (orderValue "Seller" "price" 8).encode Json.spaced⟩ :=
    canonicalize_eq (Schema.submitted_value (Json.readable_of_exact (by decide)) rfl rfl) rfl rfl
  obtain ⟨backward, forward, checked, checked', missing, removed, names, sizes⟩ :=
    backward_mirrors_forward okA okB (tree_order (by decide) "count" 4)
      (tree_order (by decide) "price" 8)
  have computed : checkReaderWriter (order "Buyer" "count" 4).toJson
      (order "Seller" "price" 8).toJson = .ok [
        ⟨.fixedSizeMismatch (.int 8) (.int 4), "/fields/key/type/size", none, none⟩,
        ⟨.nameMismatch (.str "Seller") (.str "Buyer"), "/fields/by/type/name", none, none⟩,
        ⟨.readerFieldMissingDefault (.str "count"), "/fields/lines/type/items/fields/count", none,
          none⟩,
        ⟨.writerFieldRemoved (.str "price"), "/fields/lines/type/items/fields/price", none,
          none⟩] := rfl
  cases computed.symm.trans checked
  exact ⟨_, forward, checked, checked', rfl, missing.symm, rfl, removed.symm, names.symm, sizes.symm⟩

end AvroRegistry.Compatibility
