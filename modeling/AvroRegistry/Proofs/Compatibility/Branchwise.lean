import AvroRegistry.Proofs.Compatibility.Framed
import AvroRegistry.Proofs.Compatibility.Nesting
import AvroRegistry.Proofs.Compatibility.Reflexive
import AvroRegistry.Proofs.Schema.Surrounded

/-!
# A union of the writer is checked branch by branch

The branches of a writer union share one table of names and one set of pairs met. Where no name is
defined in two branches this is not seen: a name means in the union what it means in its branch, and
what a branch has met says nothing about the pairs of another one. The check of the union finds what
the checks of the branches on their own find, one after the other (`union_checked_branchwise`).

Where a name is defined in two branches it is seen. Pairs are met by name, so a second record of a
name passes unseen if the first one has been met (`union_passes_unread`).
-/

namespace AvroRegistry.Compatibility

open Schema (Form FieldHead)

/-- The outcomes of several checks as one: the violations of all of them, or the first breakdown. -/
def together : List (Except Breakdown (List Violation)) → Except Breakdown (List Violation)
  | [] => .ok []
  | first :: rest => do
    let violations ← first
    let others ← together rest
    return violations ++ others

theorem together_eq_nil {outcomes : List (Except Breakdown (List Violation))} :
    together outcomes = .ok [] ↔ ∀ outcome ∈ outcomes, outcome = .ok [] := by
  induction outcomes with
  | nil => simp [together]
  | cons first rest ih =>
    rw [List.forall_mem_cons, ← ih, together]
    cases first with
    | error e =>
      constructor
      · intro h
        cases h
      · rintro ⟨h, -⟩
        cases h
    | ok violations =>
      cases together rest with
      | error e =>
        constructor
        · intro h
          cases h
        · rintro ⟨-, h⟩
          cases h
      | ok others =>
        show (Except.ok (violations ++ others) : Except Breakdown (List Violation)) = .ok [] ↔ _
        rw [Except.ok.injEq, Except.ok.injEq, Except.ok.injEq, List.append_eq_nil_iff]

/-! ## Names of a union and of its branches -/

section

variable {before after : List Form} {part : Form}

/-- A name that a branch defines and none before it does means in the union what it means in the
branch. -/
theorem definition?_union {n : String} (here : n ∈ part.definedNames)
    (first : ∀ b ∈ before, n ∉ b.definedNames) :
    (Form.union (before ++ part :: after)).definition? n = part.definition? n := by
  have absent : (before.flatMap Form.nodes).find? (fun node => node.definedName? == some n) =
      none := by
    rw [List.find?_eq_none]
    intro node mem defines
    obtain ⟨b, branch, inside⟩ := List.mem_flatMap.1 mem
    exact first b branch (List.mem_filterMap.2 ⟨node, inside, by simpa using defines⟩)
  obtain ⟨node, inside, defines⟩ := List.mem_filterMap.1 here
  obtain ⟨definition, found⟩ := Form.exists_definition inside defines
  rw [found]
  unfold Form.definition? at found ⊢
  rw [Form.nodes_union, List.find?_cons_of_neg (by simp [Form.definedName?]), List.flatMap_append,
    List.find?_append, absent, Option.none_or, List.flatMap_cons, List.find?_append, found]
  rfl

/-- In a linked schema every reference is to a name that the schema defines. -/
theorem Linked.name_mem_definedNames (linked : Linked part) {n : String}
    (mem : .name n ∈ part.nodes) (other : Schema.isPrimitive n = false) :
    n ∈ part.definedNames := by
  have grounded := linked.grounded _ mem
  rw [Form.resolve, other, if_neg Bool.false_ne_true] at grounded
  cases found : part.definition? n with
  | none =>
    rw [found] at grounded
    have primitive := grounded n rfl
    rw [other] at primitive
    cases primitive
  | some definition =>
    obtain ⟨inside, defines⟩ := Form.definition?_eq_some found
    exact List.mem_filterMap.2 ⟨definition, inside, defines⟩

/-- What a type in a branch stands for in the union it stands for in the branch, if no branch before
it defines one of its names. -/
theorem resolve_union (linked : Linked part)
    (first : ∀ b ∈ before, ∀ n ∈ part.definedNames, n ∉ b.definedNames) {w : Form}
    (mem : w ∈ part.nodes) :
    (Form.union (before ++ part :: after)).resolve w = part.resolve w := by
  cases w with
  | name n =>
    rw [Form.resolve, Form.resolve]
    cases other : Schema.isPrimitive n with
    | true => rfl
    | false =>
      have here := linked.name_mem_definedNames mem other
      rw [definition?_union here fun b branch => first b branch n here]
  | _ => rfl

end

/-! ## The checks of the branches -/

section

variable {reader : Form} {branches : List Form}

/-- A check of what a type of the reader stands for is one of the type. -/
theorem checkForms_resolve (reader writer : Form) (fuel : Nat) (r w : Form) (path : String) :
    checkForms reader writer fuel (reader.resolve r) w path =
      checkForms reader writer fuel r w path := by
  cases fuel with
  | zero => rfl
  | succ fuel => rw [checkForms_succ, checkForms_succ, resolve_resolve]

/-- A check of a whole union leaves room for that of a branch inside it. -/
theorem bound_branch (reader : Form) {part : Form} (mem : part ∈ branches) :
    nestingBound reader part < nestingBound reader (.union branches) := by
  have nodes : part.nodes.length < (Form.union branches).nodes.length := by
    have inside := (Form.branch_segment mem).length_le
    rw [Form.nodes_union, List.length_cons]
    omega
  have names : recordNames part ⊆ recordNames (.union branches) := by
    intro n named
    obtain ⟨node, inside, names⟩ := List.mem_filterMap.1 (List.mem_toFinset.1 named)
    refine List.mem_toFinset.2 (List.mem_filterMap.2 ⟨node, ?_, names⟩)
    rw [Form.nodes_union]
    exact List.mem_cons_of_mem _ (List.mem_flatMap.2 ⟨part, mem, inside⟩)
  have pairs : (recordPairs reader part).card ≤ (recordPairs reader (.union branches)).card :=
    Finset.card_le_card (Finset.product_subset_product_right names)
  unfold nestingBound
  exact Nat.mul_lt_mul_of_le_of_lt (Nat.succ_le_succ pairs) (by omega) (Nat.succ_pos _)

/-- What a check of a schema has met in the end it started with, or it is a pair of a name that the
schema defines. -/
theorem checkForms_met {writer : Form} (linkedR : Linked reader) (linkedW : Linked writer)
    (fuel : Nat) :
    ∀ r ∈ reader.nodes, ∀ w ∈ writer.nodes, ∀ path met violations met',
      checkForms reader writer fuel r w path met = .ok (violations, met') →
        ∀ pair ∈ met', pair ∈ met ∨ pair.2 ∈ writer.definedNames := by
  refine checkForms_onward (fun met pair mem => .inl mem) (fun first second pair mem => ?_)
    (fun met n _ m defined pair mem => ?_) linkedR linkedW fuel
  · rcases second pair mem with old | new
    · exact first pair old
    · exact .inr new
  · rcases List.mem_cons.1 mem with rfl | old
    · exact .inr defined
    · exact .inl old

/-- The branches of a union that are left, checked after the pairs that those before them have met,
come to what they come to on their own. The induction is on the branches left: what has been met is
of names that no branch left defines. -/
theorem checkAll_separate (linkedR : Linked reader) (linked : ∀ b ∈ branches, Linked b)
    (apart : branches.Pairwise fun b c => ∀ n ∈ b.definedNames, n ∉ c.definedNames) {fuel : Nat}
    (enough : ∀ b ∈ branches, nestingBound reader b ≤ fuel) (before : List Form) {left : List Form}
    (split : branches = before ++ left) {met : Met}
    (foreign : ∀ pair ∈ met, ∃ b ∈ before, pair.2 ∈ b.definedNames) :
    (checkAll (fun v => check (enter [] reader.nodes) (enter [] (Form.union branches).nodes) fuel
      (reader.resolve reader).toJson v "") (left.map Form.toJson) met).map (·.1) =
        together (left.map fun b => checkReaderWriter reader.toJson b.toJson) := by
  induction left generalizing before met with
  | nil => rfl
  | cons part rest ih =>
    have mem : part ∈ branches := by simp [split]
    have linkedP := linked part mem
    have earlier : ∀ b ∈ before, ∀ n ∈ b.definedNames, n ∉ part.definedNames := by
      rw [split] at apart
      exact fun b inside => (List.pairwise_append.1 apart).2.2 b inside part List.mem_cons_self
    have same : ∀ w ∈ part.nodes, (Form.union branches).resolve w = part.resolve w := by
      intro w inside
      rw [split]
      exact resolve_union linkedP (fun b branch n here there => earlier b branch n there here)
        inside
    have alone : ∀ pair ∈ met, pair.2 ∉ part.definedNames := by
      intro pair there
      obtain ⟨b, inside, defines⟩ := foreign pair there
      exact earlier b inside _ defines
    have framed := checkForms_framed linkedR linkedP same alone fuel reader reader.self_mem_nodes
      part part.self_mem_nodes ""
    have outcome := checkReaderWriter_eq_run linkedR linkedP (enough part mem)
    rw [List.map_cons, List.map_cons, checkAll, together, outcome]
    have run : check (enter [] reader.nodes) (enter [] (Form.union branches).nodes) fuel
        (reader.resolve reader).toJson part.toJson "" met =
          ((topCall reader part).run reader part fuel).map fun r => (r.1, r.2 ++ met) := by
      have step := congrFun (checkForms_resolve reader (.union branches) fuel reader part "") met
      exact step.trans (framed [])
    cases checked : (topCall reader part).run reader part fuel with
    | error e =>
      rw [checked] at run
      rw [Run.bind_of_error run]
      rfl
    | ok result =>
      obtain ⟨violations, pairs⟩ := result
      rw [checked] at run
      rw [Run.bind_of_ok run]
      have further : ∀ pair ∈ pairs ++ met, ∃ b ∈ before ++ [part], pair.2 ∈ b.definedNames := by
        intro pair there
        rcases List.mem_append.1 there with new | old
        · rcases checkForms_met linkedR linkedP fuel reader reader.self_mem_nodes part
            part.self_mem_nodes "" [] violations pairs checked pair new with none | defines
          · cases none
          · exact ⟨part, by simp, defines⟩
        · obtain ⟨b, inside, defines⟩ := foreign pair old
          exact ⟨b, List.mem_append_left _ inside, defines⟩
      have later := ih (before ++ [part]) (by simp [split]) further
      rw [← later]
      show Except.map (·.1) ((checkAll _ _ >>= fun others => pure (violations ++ others)) _) = _
      cases others : checkAll (fun v => check (enter [] reader.nodes)
          (enter [] (Form.union branches).nodes) fuel (reader.resolve reader).toJson v "")
          (rest.map Form.toJson) (pairs ++ met) with
      | error e =>
        rw [Run.bind_of_error others]
        rfl
      | ok found =>
        rw [Run.bind_of_ok others]
        rfl

/-- A check of a union whose branches are schemas and define no name twice between them comes to
what the checks of the branches come to. -/
theorem checkReaderWriter_union (linkedR : Linked reader) (linkedW : Linked (.union branches))
    (linked : ∀ b ∈ branches, Linked b)
    (apart : branches.Pairwise fun b c => ∀ n ∈ b.definedNames, n ∉ c.definedNames) :
    checkReaderWriter reader.toJson (Form.union branches).toJson =
      together (branches.map fun b => checkReaderWriter reader.toJson b.toJson) := by
  have enough : nestingBound reader (.union branches) ≤
      nestingBound reader (.union branches) + 1 := Nat.le_succ _
  rw [checkReaderWriter_eq_run linkedR linkedW enough]
  unfold Call.run topCall
  rw [checkForms_succ,
    show (Form.union branches).resolve (.union branches) = .union branches from rfl,
    checkTypes_writerUnion _ _ (linkedR.grounded reader reader.self_mem_nodes)]
  refine checkAll_separate linkedR linked apart (fun b mem => ?_) [] rfl (by simp)
  exact Nat.le_of_lt (bound_branch reader mem)

end

/-! ## Schemas -/

theorem linked_of_made {vs : List Json} {cs : List Schema.Canonical}
    (made : List.Forall₂ Schema.MadeOf vs cs) : ∀ c ∈ cs, Linked c.form := by
  induction made with
  | nil => simp
  | cons first _ ih =>
    obtain ⟨schema, raw, -, ok⟩ := first
    exact List.forall_mem_cons.2 ⟨linked_of_canonicalize ok, ih⟩

/-- A check of a union in canonical form finds what the checks of its branches find as schemas of
their own, if no name is defined in two of them: it finds nothing exactly if none of those finds
anything. -/
theorem union_checked_branchwise {schemaR schemaW : Json} {raw : String} {vs : List Json}
    {r w : Schema.Canonical} {cs : List Schema.Canonical}
    (okR : Schema.canonicalize schemaR = .ok r)
    (given : Schema.submitted schemaW = .ok (raw, .arr vs))
    (okW : Schema.canonicalize schemaW = .ok w) (made : List.Forall₂ Schema.MadeOf vs cs)
    (unmarked : Schema.Unmarked (.arr vs))
    (apart : cs.Pairwise fun c d => ∀ n ∈ c.form.definedNames, n ∉ d.form.definedNames) :
    checkReaderWriter r.value w.value =
        together (cs.map fun c => checkReaderWriter r.value c.value) ∧
      (checkReaderWriter r.value w.value = .ok [] ↔
        ∀ c ∈ cs, checkReaderWriter r.value c.value = .ok []) := by
  have branches := Schema.union_of_branches given okW unmarked made
  have linkedW := linked_of_canonicalize okW
  rw [branches] at linkedW
  have outcome := checkReaderWriter_union (linked_of_canonicalize okR) linkedW
    (List.forall_mem_map.2 (linked_of_made made)) (List.pairwise_map.2 apart)
  rw [List.map_map] at outcome
  unfold Schema.Canonical.value
  rw [branches]
  refine ⟨outcome, ?_⟩
  rw [outcome, together_eq_nil, List.forall_mem_map]
  rfl

/-- The value of a union of two boxes. -/
def boxesValue (first second type type' : String) : Json :=
  .arr [boxValue first "x" (.str type), boxValue second "x" (.str type')]

/-- That union. -/
def boxes (first second type type' : String) : Form :=
  .union [box first "x" (.name type), box second "x" (.name type')]

/-- Two boxes of different names in a union are read as they are on their own. -/
theorem boxes_checked_branchwise :
    ∃ r w c d : Schema.Canonical,
      Schema.canonicalize (boxesValue "A" "B" "long" "long") = .ok r ∧
      Schema.canonicalize (boxesValue "A" "B" "int" "long") = .ok w ∧
      Schema.MadeOf (boxValue "A" "x" (.str "int")) c ∧
      Schema.MadeOf (boxValue "B" "x" (.str "long")) d ∧
      checkReaderWriter r.value c.value = .ok [] ∧ checkReaderWriter r.value d.value = .ok [] ∧
      checkReaderWriter r.value w.value = .ok [] := by
  have okR : Schema.canonicalize (boxesValue "A" "B" "long" "long") =
      .ok ⟨boxes "A" "B" "long" "long", (boxesValue "A" "B" "long" "long").encode Json.spaced⟩ :=
    canonicalize_eq (Schema.submitted_value (Json.readable_of_exact (by decide)) rfl rfl) rfl rfl
  have given : Schema.submitted (boxesValue "A" "B" "int" "long") =
      .ok ((boxesValue "A" "B" "int" "long").encode Json.spaced,
        boxesValue "A" "B" "int" "long") :=
    Schema.submitted_value (Json.readable_of_exact (by decide)) rfl rfl
  have okW : Schema.canonicalize (boxesValue "A" "B" "int" "long") =
      .ok ⟨boxes "A" "B" "int" "long", (boxesValue "A" "B" "int" "long").encode Json.spaced⟩ :=
    canonicalize_eq given rfl rfl
  have first : Schema.MadeOf (boxValue "A" "x" (.str "int"))
      ⟨box "A" "x" (.name "int"), (boxValue "A" "x" (.str "int")).encode Json.spaced⟩ := by
    have given := Schema.submitted_value (v := boxValue "A" "x" (.str "int"))
      (Json.readable_of_exact (by decide)) rfl rfl
    exact ⟨_, _, given, canonicalize_eq given rfl rfl⟩
  have second : Schema.MadeOf (boxValue "B" "x" (.str "long"))
      ⟨box "B" "x" (.name "long"), (boxValue "B" "x" (.str "long")).encode Json.spaced⟩ := by
    have given := Schema.submitted_value (v := boxValue "B" "x" (.str "long"))
      (Json.readable_of_exact (by decide)) rfl rfl
    exact ⟨_, _, given, canonicalize_eq given rfl rfl⟩
  have unmarked : Schema.Unmarked (boxesValue "A" "B" "int" "long") :=
    Schema.unmarked_of_not_mentions _ (by decide)
  obtain ⟨-, verdict⟩ := union_checked_branchwise okR given okW
    (.cons first (.cons second .nil)) unmarked (by simp [box, Form.definedNames, Form.nodes,
      Form.nodesOfFields, Form.definedName?])
  refine ⟨_, _, _, _, okR, okW, first, second, rfl, rfl, verdict.2 ?_⟩
  simp only [List.forall_mem_cons]
  exact ⟨rfl, rfl, by simp⟩

/-- A union that defines a name twice may be read though a branch of it is not: the second record
of the name passes unseen. -/
theorem union_passes_unread :
    ∃ r w c d : Schema.Canonical,
      Schema.canonicalize (boxValue "A" "x" (.str "int")) = .ok r ∧
      Schema.canonicalize (boxesValue "A" "A" "int" "boolean") = .ok w ∧
      Schema.MadeOf (boxValue "A" "x" (.str "int")) c ∧
      Schema.MadeOf (boxValue "A" "x" (.str "boolean")) d ∧
      w.form = .union [c.form, d.form] ∧ checkReaderWriter r.value w.value = .ok [] ∧
      checkReaderWriter r.value d.value =
        .ok [⟨.typeMismatch "int" "boolean", "/fields/x/type", none, none⟩] := by
  have given := Schema.submitted_value (v := boxValue "A" "x" (.str "int"))
    (Json.readable_of_exact (by decide)) rfl rfl
  have given' := Schema.submitted_value (v := boxValue "A" "x" (.str "boolean"))
    (Json.readable_of_exact (by decide)) rfl rfl
  have okR : Schema.canonicalize (boxValue "A" "x" (.str "int")) =
      .ok ⟨box "A" "x" (.name "int"), (boxValue "A" "x" (.str "int")).encode Json.spaced⟩ :=
    canonicalize_eq given rfl rfl
  have okD : Schema.canonicalize (boxValue "A" "x" (.str "boolean")) =
      .ok ⟨box "A" "x" (.name "boolean"), (boxValue "A" "x" (.str "boolean")).encode Json.spaced⟩ :=
    canonicalize_eq given' rfl rfl
  have okW : Schema.canonicalize (boxesValue "A" "A" "int" "boolean") =
      .ok ⟨boxes "A" "A" "int" "boolean",
        (boxesValue "A" "A" "int" "boolean").encode Json.spaced⟩ :=
    canonicalize_eq (Schema.submitted_value (Json.readable_of_exact (by decide)) rfl rfl) rfl rfl
  exact ⟨_, _, _, _, okR, okW, ⟨_, _, given, okR⟩, ⟨_, _, given', okD⟩, rfl, rfl, rfl⟩

end AvroRegistry.Compatibility
