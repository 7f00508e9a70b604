import AvroRegistry.Proofs.Compatibility.Branches
import AvroRegistry.Proofs.Compatibility.Collected
import AvroRegistry.Proofs.Compatibility.Records
import AvroRegistry.Proofs.Schema.Closed

/-!
# A check that finds nothing

What the check of two canonical schemas comes to, where it gives a result: it finds nothing exactly
if data of the one can be read with the other.

A pair of records that is met while it is being checked counts as good. What makes up for it is an
invariant of the pairs met, `Extends`: a check that finds nothing only adds pairs whose fields are
read, as far as such checks tell, and it stays true when further pairs are met. A branch of a reader
union that fails takes back what it added, so nothing else ever adds a pair. All pairs left at the
end are therefore good together, and the types that checks have passed from among them are a
relation that agrees with the rules. The other direction needs no invariant: a pair that is met is
only ever passed.
-/

namespace AvroRegistry.Compatibility

open Schema (Form FieldHead)

/-! ## Linked forms -/

/-- A form without defects in which every reference leads to a definition. -/
structure Linked (form : Form) : Prop where
  tidy : ∀ node ∈ form.nodes, node.Tidy
  grounded : ∀ node ∈ form.nodes, Grounded (form.resolve node)

theorem linked_of_built {form : Form} {after : List String} (built : Schema.Built [] form after) :
    Linked form := by
  refine ⟨built.tidy, fun node mem => ?_⟩
  cases node with
  | name n =>
    rw [Form.resolve]
    cases primitive : Schema.isPrimitive n with
    | true =>
      rw [if_pos rfl]
      intro p found
      cases found
      exact primitive
    | false =>
      rw [if_neg Bool.false_ne_true]
      obtain ⟨before, later, split⟩ := List.append_of_mem mem
      obtain ⟨d, inside, defines⟩ : ∃ d ∈ form.nodes, d.definedName? = some n := by
        rcases built.inScope.defined_before split primitive with outside | ⟨d, inside, defines⟩
        · exact absurd outside List.not_mem_nil
        · exact ⟨d, split ▸ List.mem_append_left _ inside, defines⟩
      obtain ⟨definition, found⟩ := Form.exists_definition inside defines
      rw [found]
      obtain ⟨-, defines⟩ := Form.definition?_eq_some found
      apply grounded_of_none
      show primitive? definition = none
      cases definition with
      | name _ => cases defines
      | annotated _ _ => cases defines
      | _ => rfl
  | annotated p attributes =>
    intro q found
    cases found
    exact built.tidy _ mem
  | _ => exact grounded_of_none rfl

/-- Two nodes that define one name are one node, where names are defined once. -/
theorem eq_of_definedName {form a b : Form} {n : String} (once : form.definedNames.Nodup)
    (ha : a ∈ form.nodes) (hb : b ∈ form.nodes) (defines : a.definedName? = some n)
    (defines' : b.definedName? = some n) : a = b := by
  unfold Form.definedNames at once
  generalize form.nodes = nodes at once ha hb
  induction nodes with
  | nil => cases ha
  | cons node rest ih =>
    have later : ∀ {c : Form}, c ∈ rest → c.definedName? = some n →
        n ∈ rest.filterMap Form.definedName? := fun mem named =>
      List.mem_filterMap.2 ⟨_, mem, named⟩
    rcases List.mem_cons.1 ha with rfl | restA
    · rcases List.mem_cons.1 hb with rfl | restB
      · rfl
      · rw [List.filterMap_cons_some defines] at once
        exact absurd (later restB defines') (List.nodup_cons.1 once).1
    · rcases List.mem_cons.1 hb with rfl | restB
      · rw [List.filterMap_cons_some defines'] at once
        exact absurd (later restA defines) (List.nodup_cons.1 once).1
      · refine ih (once.sublist ?_) restA restB
        exact (List.sublist_cons_self node rest).filterMap _

section

variable {reader writer : Form}

/-- The check of two types of two schemas. -/
def checkForms (reader writer : Form) (fuel : Nat) (r w : Form) (path : String) :
    Checking (List Violation) :=
  check (enter [] reader.nodes) (enter [] writer.nodes) fuel r.toJson w.toJson path

theorem checkForms_succ (fuel : Nat) (r w : Form) (path : String) :
    checkForms reader writer (fuel + 1) r w path =
      checkTypes (check (enter [] reader.nodes) (enter [] writer.nodes) fuel)
        (reader.resolve r).toJson (writer.resolve w).toJson path := by
  rw [checkForms, check, resolveIn_toJson, resolveIn_toJson]

/-! ## What a check that finds nothing leaves -/

/-- A check of two types has found nothing and has met some of the given pairs. -/
def Passed (reader writer : Form) (pairs : Met) (r w : Form) : Prop :=
  r ∈ reader.nodes ∧ w ∈ writer.nodes ∧ ∃ fuel path met met',
    checkForms reader writer fuel r w path met = .ok ([], met') ∧ met' ⊆ pairs

/-- A pair of names is that of two records whose fields are read, as far as checks tell that have
met some of the given pairs. -/
def Backed (reader writer : Form) (pairs : Met) (pair : String × String) : Prop :=
  ∃ isError aliases fields isError' aliases' fields',
    Form.record isError pair.1 aliases fields ∈ reader.nodes ∧
    Form.record isError' pair.2 aliases' fields' ∈ writer.nodes ∧
    FieldsRead (Passed reader writer pairs) fields fields'

/-- Pairs have been added to others, and those added are backed by all of them. -/
structure Extends (reader writer : Form) (met met' : Met) : Prop where
  keeps : met ⊆ met'
  adds : ∀ pair ∈ met', pair ∈ met ∨ Backed reader writer met' pair

theorem Passed.mono {met met' : Met} (sub : met ⊆ met') {r w : Form}
    (h : Passed reader writer met r w) : Passed reader writer met' r w := by
  obtain ⟨hr, hw, fuel, path, a, b, ok, within⟩ := h
  exact ⟨hr, hw, fuel, path, a, b, ok, List.Subset.trans within sub⟩

theorem Backed.mono {met met' : Met} (sub : met ⊆ met') {pair : String × String}
    (h : Backed reader writer met pair) : Backed reader writer met' pair := by
  obtain ⟨isError, aliases, fields, isError', aliases', fields', hr, hw, read⟩ := h
  exact ⟨isError, aliases, fields, isError', aliases', fields', hr, hw,
    read.mono fun _ _ _ _ passed => passed.mono sub⟩

theorem Extends.refl (met : Met) : Extends reader writer met met :=
  ⟨fun _ => id, fun _ => .inl⟩

theorem Extends.trans {a b c : Met} (first : Extends reader writer a b)
    (second : Extends reader writer b c) : Extends reader writer a c := by
  refine ⟨List.Subset.trans first.keeps second.keeps, fun pair mem => ?_⟩
  rcases second.adds pair mem with old | backed
  · rcases first.adds pair old with older | backed
    · exact .inl older
    · exact .inr (backed.mono second.keeps)
  · exact .inr backed

/-- What a check that finds nothing says of its two types: the pairs met are extended, and as soon
as all pairs are backed, the rules let the one be read as the other. -/
structure Sound (reader writer : Form) (r w : Form) (met met' : Met) : Prop where
  onward : Extends reader writer met met'
  step : ∀ pairs : Met, met' ⊆ pairs → (∀ pair ∈ pairs, Backed reader writer pairs pair) →
    ReadsStep (Passed reader writer pairs) r w

/-! ## Records -/

section

variable {fuel : Nat} {path : String} {isError isError' : Bool} {n m : String}
  {aliases aliases' : List Json} {fields fields' : List (FieldHead × Form)} {met met' : Met}

/-- Two records of which a check finds nothing, given that smaller checks extend the pairs met. -/
theorem sound_records (linkedR : Linked reader) (linkedW : Linked writer)
    (onceR : reader.definedNames.Nodup) (onceW : writer.definedNames.Nodup)
    (hr : Form.record isError n aliases fields ∈ reader.nodes)
    (hw : Form.record isError' m aliases' fields' ∈ writer.nodes) (agree : NamesAgree n aliases m)
    (ih : ∀ a ∈ reader.nodes, ∀ b ∈ writer.nodes, ∀ path met met',
      checkForms reader writer fuel a b path met = .ok ([], met') →
        Extends reader writer met met')
    (ok : checkRecord (check (enter [] reader.nodes) (enter [] writer.nodes) fuel)
      (Form.record isError n aliases fields).toJson
      (Form.record isError' m aliases' fields').toJson path met = .ok ([], met')) :
    Sound reader writer (.record isError n aliases fields) (.record isError' m aliases' fields')
      met met' := by
  have plain : ∀ {flag name others types}, ¬ IsUnion (.record flag name others types) :=
    fun ⟨_, h⟩ => nomatch h
  by_cases there : (n, m) ∈ met
  · rw [checkRecord_met there] at ok
    cases ok
    refine ⟨Extends.refl met, fun pairs sub backed => ?_⟩
    -- The records that back the pair are these two, because a name is defined once.
    obtain ⟨_, _, _, _, _, _, hr', hw', read⟩ := backed (n, m) (sub there)
    cases eq_of_definedName onceR hr hr' rfl rfl
    cases eq_of_definedName onceW hw hw' rfl rfl
    exact .plain plain plain (.record agree read)
  · have tidyR := linkedR.tidy _ hr
    have tidyW := linkedW.tidy _ hw
    obtain ⟨onward, read⟩ := checkRecord_passed Extends.refl Extends.trans there tidyR.2.keys
      tidyW.2 (fun f hf g hg place a b passed => ih f.2 (Form.type_mem_nodes hr hf) g.2
        (Form.type_mem_nodes hw hg) place a b passed) ok
    have passes : FieldsRead (Passed reader writer met') fields fields' := by
      refine read.mono fun f hf g found passed => ?_
      obtain ⟨place, x, y, ok, further⟩ := passed
      exact ⟨Form.type_mem_nodes hr hf, Form.type_mem_nodes hw (counterpart?_mem found), fuel,
        place, x, y, ok, further.keeps⟩
    refine ⟨⟨fun pair mem => onward.keeps (List.mem_cons_of_mem _ mem), ?_⟩, ?_⟩
    · intro pair mem
      rcases onward.adds pair mem with old | backed
      · rcases List.mem_cons.1 old with rfl | older
        · exact .inr ⟨_, _, _, _, _, _, hr, hw, passes⟩
        · exact .inl older
      · exact .inr backed
    · intro pairs sub _
      exact .plain plain plain (.record agree (passes.mono fun _ _ _ _ h => h.mono sub))

end

/-! ## The whole check -/

/-- A check that finds nothing is sound. The induction is on its nesting; each call only looks at
the shape of its two types. -/
theorem sound (linkedR : Linked reader) (linkedW : Linked writer)
    (onceR : reader.definedNames.Nodup) (onceW : writer.definedNames.Nodup) (fuel : Nat) :
    ∀ r ∈ reader.nodes, ∀ w ∈ writer.nodes, ∀ path met met',
      checkForms reader writer fuel r w path met = .ok ([], met') →
        Sound reader writer (reader.resolve r) (writer.resolve w) met met' := by
  induction fuel with
  | zero =>
    intro r _ w _ path met met' ok
    cases ok
  | succ fuel ih =>
    intro r hr w hw path met met' ok
    have onward := fun a ha b hb path met met' ok => (ih a ha b hb path met met' ok).onward
    have hr' : reader.resolve r ∈ reader.nodes := Form.resolve_mem_nodes hr
    have hw' : writer.resolve w ∈ writer.nodes := Form.resolve_mem_nodes hw
    have grounded := linkedR.grounded r hr
    have groundedW := linkedW.grounded w hw
    rw [checkForms_succ] at ok
    generalize reader.resolve r = a at hr' grounded ok ⊢
    generalize writer.resolve w = b at hw' groundedW ok ⊢
    have turns : Turn a b :=
      turn grounded groundedW (linkedR.tidy a hr') (linkedW.tidy b hw')
    cases turns with
    | writerUnion _ branches =>
      rw [checkTypes_writerUnion _ _ grounded] at ok
      obtain ⟨extended, each⟩ := checkAll_passed Extends.refl Extends.trans
        (fun c mem x y => onward a hr' c (Form.branch_mem_nodes hw' mem) path x y) ok
      refine ⟨extended, fun pairs sub _ => .every fun c mem => ?_⟩
      obtain ⟨x, y, passed, further⟩ := each c mem
      exact ⟨hr', Form.branch_mem_nodes hw' mem, fuel, path, x, y, passed,
        List.Subset.trans further.keeps sub⟩
    | readerUnion branches _ single =>
      obtain ⟨v, outcome⟩ := checkTypes_readerUnion
        (check (enter [] reader.nodes) (enter [] writer.nodes) fuel) path branches groundedW single
      rw [outcome] at ok
      obtain ⟨found, after, tried, last⟩ := Run.bind_eq_ok.1 ok
      rcases checkSome_eq_ok tried with ⟨rfl, c, mem, passed⟩ | ⟨rfl, -, -⟩
      · cases last
        refine ⟨onward c (Form.branch_mem_nodes hr' mem) b hw' path met met' passed, ?_⟩
        intro pairs sub _
        exact .some single mem ⟨Form.branch_mem_nodes hr' mem, hw', fuel, path, met, met',
          passed, sub⟩
      · cases last
    | arrays c d =>
      rw [checkTypes_arrays] at ok
      have hc := Form.items_mem_nodes hr'
      have hd := Form.items_mem_nodes hw'
      refine ⟨onward c hc d hd _ met met' ok, fun pairs sub _ => ?_⟩
      exact .plain nofun nofun (.array ⟨hc, hd, fuel, _, met, met', ok, sub⟩)
    | maps c d =>
      rw [checkTypes_maps] at ok
      have hc := Form.values_mem_nodes hr'
      have hd := Form.values_mem_nodes hw'
      refine ⟨onward c hc d hd _ met met' ok, fun pairs sub _ => ?_⟩
      exact .plain nofun nofun (.map ⟨hc, hd, fuel, _, met, met', ok, sub⟩)
    | records isError isError' n m aliases aliases' fields fields' =>
      rw [checkTypes_records] at ok
      have names := namesMatch_named (linkedR.tidy _ hr') (linkedW.tidy _ hw') rfl rfl
      rcases checkNamed_eq_ok names ok with ⟨agree, ok⟩ | ⟨-, some, -⟩
      · exact sound_records linkedR linkedW onceR onceW hr' hw' agree onward ok
      · exact absurd rfl some
    | leaf _ _ single singleW settled =>
      refine ⟨?_, fun pairs _ _ => ?_⟩
      · obtain ⟨rfl, -⟩ := settled.settles _ _ (Passed reader writer []) _ _ _ ok
        exact Extends.refl met'
      · obtain ⟨-, agree⟩ := settled.settles _ _ (Passed reader writer pairs) _ _ _ ok
        exact .plain single singleW (agree.1 rfl)

/-- If a check from no pairs finds nothing, the reader reads the writer. -/
theorem reads_of_passed (linkedR : Linked reader) (linkedW : Linked writer)
    (onceR : reader.definedNames.Nodup) (onceW : writer.definedNames.Nodup) {fuel : Nat}
    {path : String} {pairs : Met}
    (ok : checkForms reader writer fuel reader writer path [] = .ok ([], pairs)) :
    Reads reader writer reader writer := by
  have hr := reader.self_mem_nodes
  have hw := writer.self_mem_nodes
  have first := sound linkedR linkedW onceR onceW fuel reader hr writer hw path [] pairs ok
  have backed : ∀ pair ∈ pairs, Backed reader writer pairs pair := by
    intro pair mem
    rcases first.onward.adds pair mem with none | backed
    · exact absurd none List.not_mem_nil
    · exact backed
  refine ⟨Passed reader writer pairs, ?_, hr, hw, fuel, path, [], pairs, ok, fun _ => id⟩
  rintro a b ⟨ha, hb, fuel', path', met, met', passed, sub⟩
  exact (sound linkedR linkedW onceR onceW fuel' a ha b hb path' met met' passed).step pairs sub
    backed

/-- A check of two types that can be read finds nothing, whatever pairs have been met. The induction
is on its nesting: what can be read has parts that can be read. -/
theorem clean (linkedR : Linked reader) (linkedW : Linked writer) {reads : Form → Form → Prop}
    (consistent : Consistent reader writer reads) (fuel : Nat) :
    ∀ r ∈ reader.nodes, ∀ w ∈ writer.nodes, reads r w → ∀ path met violations met',
      checkForms reader writer fuel r w path met = .ok (violations, met') → violations = [] := by
  induction fuel with
  | zero =>
    intro r _ w _ _ path met violations met' ok
    cases ok
  | succ fuel ih =>
    intro r hr w hw holds path met violations met' ok
    have hr' : reader.resolve r ∈ reader.nodes := Form.resolve_mem_nodes hr
    have hw' : writer.resolve w ∈ writer.nodes := Form.resolve_mem_nodes hw
    have grounded := linkedR.grounded r hr
    have groundedW := linkedW.grounded w hw
    have step := consistent r w holds
    rw [checkForms_succ] at ok
    generalize reader.resolve r = a at hr' grounded ok step
    generalize writer.resolve w = b at hw' groundedW ok step
    have turns : Turn a b :=
      turn grounded groundedW (linkedR.tidy a hr') (linkedW.tidy b hw')
    cases turns with
    | writerUnion _ branches =>
      rw [checkTypes_writerUnion _ _ grounded] at ok
      exact checkAll_clean (fun c mem =>
        ih a hr' c (Form.branch_mem_nodes hw' mem) (step.branches c mem) path) ok
    | readerUnion branches _ single =>
      obtain ⟨c, mem, one⟩ := step.branch single
      obtain ⟨v, outcome⟩ := checkTypes_readerUnion
        (check (enter [] reader.nodes) (enter [] writer.nodes) fuel) path branches groundedW single
      rw [outcome] at ok
      obtain ⟨found, after, tried, last⟩ := Run.bind_eq_ok.1 ok
      rcases checkSome_eq_ok tried with ⟨rfl, -⟩ | ⟨rfl, -, failed⟩
      · cases last
        rfl
      · obtain ⟨vs, y, checked, some⟩ := failed c mem
        exact absurd (ih c (Form.branch_mem_nodes hr' mem) b hw' one path met vs y checked) some
    | arrays c d =>
      rw [checkTypes_arrays] at ok
      have items := (step.matched nofun nofun).items
      exact ih c (Form.items_mem_nodes hr') d (Form.items_mem_nodes hw') items _ met violations
        met' ok
    | maps c d =>
      rw [checkTypes_maps] at ok
      have values := (step.matched nofun nofun).values
      exact ih c (Form.values_mem_nodes hr') d (Form.values_mem_nodes hw') values _ met violations
        met' ok
    | records isError isError' n m aliases aliases' fields fields' =>
      rw [checkTypes_records] at ok
      obtain ⟨agree, read⟩ := (step.matched nofun nofun).fields
      have names := namesMatch_named (linkedR.tidy _ hr') (linkedW.tidy _ hw') rfl rfl
      rcases checkNamed_eq_ok names ok with ⟨-, ok⟩ | ⟨differ, -, -⟩
      · refine checkRecord_clean (linkedR.tidy _ hr').2.keys (linkedW.tidy _ hw').2 read ?_ ok
        intro f hf g hg holds
        exact ih f.2 (Form.type_mem_nodes hr' hf) g.2 (Form.type_mem_nodes hw' hg) holds
      · exact absurd agree differ
    | leaf _ _ single singleW settled =>
      have matched := step.matched single singleW
      obtain ⟨-, agree⟩ := settled.settles _ _ reads _ _ _ ok
      exact agree.2 matched

end

end AvroRegistry.Compatibility
