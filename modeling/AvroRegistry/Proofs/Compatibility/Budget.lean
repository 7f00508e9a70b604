import AvroRegistry.Proofs.Compatibility.Passes
import Mathlib.Data.List.ProdSigma
import Mathlib.Data.List.Perm.Subperm

/-!
# The budget of a check is enough

A check of two canonical schemas gives a result if the aliases of the reader are texts, so that the
comparison of names never breaks down. What has to be shown is that the nesting of calls stays
within the budget: between two pairs of records the check goes down inside two types, each lighter
than its schema, and a pair of names is met once, so that there are at most as many new pairs as
there are pairs of collected names.
-/

namespace AvroRegistry.Compatibility

open Schema (Form FieldHead)

/-! ## Weights -/

theorem weight_pos (v : Json) : 0 < weight v := by
  cases v with
  | str s => exact Nat.zero_lt_two
  | arr items =>
    rw [weight]
    omega
  | obj members =>
    rw [weight]
    omega
  | _ => exact Nat.one_pos

theorem weight_item {items : List Json} {v : Json} (mem : v ∈ items) :
    weight v < weight (.arr items) := by
  have within : weight v ≤ weightItems items := by
    induction items with
    | nil => cases mem
    | cons first rest ih =>
      rw [weightItems]
      rcases List.mem_cons.1 mem with rfl | later
      · omega
      · have := ih later
        omega
  rw [weight]
  omega

theorem weight_member {key : String} {members : List (String × Json)} {v : Json}
    (mem : (key, v) ∈ members) : weight v < weight (.obj members) := by
  have within : weight v ≤ weightMembers members := by
    induction members with
    | nil => cases mem
    | cons first rest ih =>
      obtain ⟨k, w⟩ := first
      rw [weightMembers]
      rcases List.mem_cons.1 mem with same | later
      · cases same
        omega
      · have := ih later
        omega
  rw [weight]
  omega

theorem weight_branch {branches : List Form} {b : Form} (mem : b ∈ branches) :
    weight b.toJson < weight (Form.union branches).toJson := by
  rw [Schema.toJson_union]
  exact weight_item (List.mem_map_of_mem mem)

theorem weight_items (items : Form) : weight items.toJson < weight (Form.array items).toJson := by
  rw [Form.toJson]
  exact weight_member (List.mem_cons_of_mem _ List.mem_cons_self)

theorem weight_values (values : Form) : weight values.toJson < weight (Form.map values).toJson := by
  rw [Form.toJson]
  exact weight_member (List.mem_cons_of_mem _ List.mem_cons_self)

theorem weight_field (f : FieldHead × Form) : weight f.2.toJson < weight (fieldJson f) :=
  weight_member (List.mem_append_left _ (List.mem_append_left _ (List.mem_append_left _
    (List.mem_cons_of_mem _ List.mem_cons_self))))

theorem weight_fields (isError : Bool) (full : String) (aliases : List Json)
    (fields : List (FieldHead × Form)) : weight (.arr (fields.map fieldJson)) <
      weight (Form.record isError full aliases fields).toJson := by
  rw [Schema.toJson_record]
  exact weight_member (List.mem_append_right _ List.mem_cons_self)

theorem weight_type {isError : Bool} {full : String} {aliases : List Json}
    {fields : List (FieldHead × Form)} {f : FieldHead × Form} (mem : f ∈ fields) :
    weight f.2.toJson < weight (Form.record isError full aliases fields).toJson := by
  have field : weight (fieldJson f) < weight (.arr (fields.map fieldJson)) :=
    weight_item (List.mem_map_of_mem mem)
  have type := weight_field f
  have listed := weight_fields isError full aliases fields
  omega

/-- A type in a schema is no heavier than the schema. -/
theorem weight_node {root node : Form} (mem : node ∈ root.nodes) :
    weight node.toJson ≤ weight root.toJson := by
  induction root using Form.induct with
  | union branches ih =>
    rw [Form.nodes_union] at mem
    rcases List.mem_cons.1 mem with rfl | inside
    · exact Nat.le_refl _
    · obtain ⟨b, branch, deeper⟩ := List.mem_flatMap.1 inside
      have := ih b branch deeper
      have := weight_branch branch
      omega
  | array items ih =>
    rcases List.mem_cons.1 mem with rfl | inside
    · exact Nat.le_refl _
    · have := ih inside
      have := weight_items items
      omega
  | map values ih =>
    rcases List.mem_cons.1 mem with rfl | inside
    · exact Nat.le_refl _
    · have := ih inside
      have := weight_values values
      omega
  | record isError full aliases fields ih =>
    rw [Form.nodes_record] at mem
    rcases List.mem_cons.1 mem with rfl | inside
    · exact Nat.le_refl _
    · obtain ⟨f, field, deeper⟩ := List.mem_flatMap.1 inside
      have := ih f field deeper
      have : weight f.2.toJson < weight (Form.record isError full aliases fields).toJson :=
        weight_type field
      omega
  | _ =>
    obtain rfl : node = _ := List.mem_singleton.1 mem
    exact Nat.le_refl _

/-! ## Reach -/

/-- How many calls can go down through a type before they come to a named type or a primitive
one. -/
def reach : Form → Nat
  | .union branches => weight (Form.union branches).toJson
  | .array items => weight (Form.array items).toJson
  | .map values => weight (Form.map values).toJson
  | _ => 1

theorem reach_le_weight (form : Form) : reach form ≤ weight form.toJson := by
  cases form with
  | union branches => exact Nat.le_refl _
  | array items => exact Nat.le_refl _
  | map values => exact Nat.le_refl _
  | _ => exact weight_pos _

theorem reach_pos (form : Form) : 0 < reach form := by
  cases form with
  | union branches => exact weight_pos _
  | array items => exact weight_pos _
  | map values => exact weight_pos _
  | _ => exact Nat.one_pos

theorem reach_branch {branches : List Form} {b : Form} (mem : b ∈ branches) :
    reach b < reach (.union branches) :=
  Nat.lt_of_le_of_lt (reach_le_weight b) (weight_branch mem)

theorem reach_items (items : Form) : reach items < reach (.array items) :=
  Nat.lt_of_le_of_lt (reach_le_weight items) (weight_items items)

theorem reach_values (values : Form) : reach values < reach (.map values) :=
  Nat.lt_of_le_of_lt (reach_le_weight values) (weight_values values)

/-- What a type stands for has its reach. -/
theorem reach_resolve (root node : Form) : reach (root.resolve node) = reach node := by
  cases node with
  | name n =>
    rw [Form.resolve]
    split
    · rfl
    · cases found : root.definition? n with
      | none => rfl
      | some definition =>
        obtain ⟨-, defines⟩ := Form.definition?_eq_some found
        show reach definition = 1
        cases definition with
        | record _ _ _ _ => rfl
        | enumeration _ _ _ _ => rfl
        | fixed _ _ _ _ => rfl
        | _ => cases defines
  | _ => rfl

/-! ## Pairs of names -/

/-- The aliases of a schema are texts, and those of its fields values that can be looked up. -/
structure Textual (form : Form) : Prop where
  types : ∀ node ∈ form.nodes, ∀ a ∈ aliasesOf node, ∃ s, a = .str s
  fields : ∀ isError full aliases fields, .record isError full aliases fields ∈ form.nodes →
    ∀ f ∈ fields, ∀ a ∈ f.1.aliases, a.isKey = true

section

variable {reader writer : Form}

/-- The number of pairs of names that two schemas have. -/
def pairCount (reader writer : Form) : Nat :=
  (enter [] reader.nodes).length * (enter [] writer.nodes).length

/-- Pairs of names that two schemas have, each once. -/
structure Noted (reader writer : Form) (met : Met) : Prop where
  once : met.Nodup
  named : met ⊆ Json.keys (enter [] reader.nodes) ×ˢ Json.keys (enter [] writer.nodes)

theorem noted_length {met : Met} (noted : Noted reader writer met) :
    met.length ≤ pairCount reader writer := by
  have short := (List.subperm_of_subset noted.once noted.named).length_le
  rwa [List.length_product, Json.keys, Json.keys, List.length_map, List.length_map] at short

/-- A name that a node defines is among the collected ones. -/
theorem mem_keys_names {form node : Form} {n : String} (mem : node ∈ form.nodes)
    (defines : node.definedName? = some n) : n ∈ Json.keys (enter [] form.nodes) := by
  obtain ⟨definition, found⟩ := Form.exists_definition mem defines
  rw [← Json.lookup_isSome, lookup_names, found]
  rfl

theorem noted_cons {met : Met} (noted : Noted reader writer met) {r w : Form} {n m : String}
    (hr : r ∈ reader.nodes) (hw : w ∈ writer.nodes) (named : r.definedName? = some n)
    (namedW : w.definedName? = some m) (new : (n, m) ∉ met) :
    Noted reader writer ((n, m) :: met) := by
  refine ⟨List.nodup_cons.2 ⟨new, noted.once⟩, ?_⟩
  intro pair mem
  rcases List.mem_cons.1 mem with rfl | old
  · exact List.mem_product.2 ⟨mem_keys_names hr named, mem_keys_names hw namedW⟩
  · exact noted.named old

/-! ## The check gives a result -/

/-- How deep a check can be nested: each pair that is still new lets it go down through both
schemas once more. -/
def depth (reader writer : Form) (met : Met) (r w : Form) : Nat :=
  (pairCount reader writer - met.length) * (weight reader.toJson + weight writer.toJson) +
    (reach r + reach w)

/-- Parts with less reach are nested less deep, also after more pairs have been met. -/
theorem depth_part {met met' : Met} (more : met.length ≤ met'.length) {r w r' w' : Form}
    (lower : reach r' + reach w' < reach r + reach w) :
    depth reader writer met' r' w' < depth reader writer met r w := by
  have fewer := Nat.mul_le_mul_right (weight reader.toJson + weight writer.toJson)
    (Nat.sub_le_sub_left more (pairCount reader writer))
  exact Nat.add_lt_add_of_le_of_lt fewer lower

/-- Behind a new pair, any two types of the schemas are nested less deep than the pair. -/
theorem depth_new {met met' : Met} {pair : String × String}
    (noted : Noted reader writer (pair :: met)) (more : met.length < met'.length)
    {r w r' w' : Form} (hr : r' ∈ reader.nodes) (hw : w' ∈ writer.nodes) :
    depth reader writer met' r' w' < depth reader writer met r w := by
  have room := noted_length noted
  rw [List.length_cons] at room
  have light := Nat.add_le_add (Nat.le_trans (reach_le_weight r') (weight_node hr))
    (Nat.le_trans (reach_le_weight w') (weight_node hw))
  have positive := reach_pos r
  unfold depth
  generalize weight reader.toJson + weight writer.toJson = both at light ⊢
  obtain ⟨left, split⟩ : ∃ left, pairCount reader writer - met.length = left + 1 :=
    ⟨pairCount reader writer - met.length - 1, by omega⟩
  have fewer := Nat.mul_le_mul_right both
    (show pairCount reader writer - met'.length ≤ left by omega)
  rw [split, Nat.succ_mul]
  omega

/-- A step gives a result, and the pairs met stay noted and do not get fewer. -/
def Finishes (reader writer : Form) (step : Checking (List Violation)) (met : Met) : Prop :=
  ∃ violations met', step met = .ok (violations, met') ∧
    (Noted reader writer met' ∧ met.length ≤ met'.length)

/-- The check of two records finishes if those of the types of their fields do, once the pair has
been met: there is one pair less that can still be. -/
theorem finishes_records (linkedR : Linked reader) (linkedW : Linked writer)
    (textual : Textual reader) {fuel : Nat} {r w : Form} {isError isError' : Bool} {n m : String}
    {aliases aliases' : List Json} {fields fields' : List (FieldHead × Form)} {met : Met}
    (hr : Form.record isError n aliases fields ∈ reader.nodes)
    (hw : Form.record isError' m aliases' fields' ∈ writer.nodes) (noted : Noted reader writer met)
    (enough : depth reader writer met r w ≤ fuel + 1)
    (parts : ∀ c ∈ reader.nodes, ∀ d ∈ writer.nodes, ∀ place x, Noted reader writer x →
      depth reader writer x c d ≤ fuel →
        Finishes reader writer (checkForms reader writer fuel c d place) x) (path : String) :
    Finishes reader writer (checkTypes (check (enter [] reader.nodes) (enter [] writer.nodes) fuel)
      (Form.record isError n aliases fields).toJson
      (Form.record isError' m aliases' fields').toJson path) met := by
  unfold Finishes
  rw [checkTypes_records]
  have start : Noted reader writer met ∧ met.length ≤ met.length := ⟨noted, Nat.le_refl _⟩
  have names := namesMatch_named (linkedR.tidy _ hr) (linkedW.tidy _ hw) rfl rfl
  rcases checkNamed_total names (textual.types _ hr) _ met with goesOn | ⟨violations, ok⟩
  · rw [goesOn]
    by_cases there : (n, m) ∈ met
    · rw [checkRecord_met there]
      exact ⟨[], met, rfl, start⟩
    · have grown := noted_cons noted hr hw rfl rfl there
      have types : ∀ f ∈ fields, ∀ g ∈ fields', ∀ place x,
          Noted reader writer x ∧ met.length + 1 ≤ x.length →
            ∃ vs y, checkForms reader writer fuel f.2 g.2 place x = .ok (vs, y) ∧
              (Noted reader writer y ∧ met.length + 1 ≤ y.length) := by
        intro f hf g hg place x ⟨notedX, more⟩
        have hf' := Form.type_mem_nodes hr hf
        have hg' := Form.type_mem_nodes hw hg
        have shallow := @depth_new reader writer met x _ grown more r w f.2 g.2 hf' hg'
        obtain ⟨vs, y, ok, notedY, further⟩ := parts f.2 hf' g.2 hg' place x notedX (by omega)
        exact ⟨vs, y, ok, notedY, Nat.le_trans more further⟩
      obtain ⟨vs, after, ok, notedAfter, more⟩ := checkRecord_total there
        (linkedR.tidy _ hr).2.keys (linkedW.tidy _ hw).2 (textual.fields _ _ _ _ hr) types
        ⟨grown, Nat.le_refl _⟩
      exact ⟨vs, after, ok, notedAfter, by omega⟩
  · exact ⟨violations, met, ok, start⟩

/-- A check of two types whose depth is within the fuel gives a result. The induction is on the
fuel: a part of a type has less reach, and the fields of a record are behind a new pair. -/
theorem finishes (linkedR : Linked reader) (linkedW : Linked writer) (textual : Textual reader)
    (fuel : Nat) :
    ∀ r ∈ reader.nodes, ∀ w ∈ writer.nodes, ∀ path met, Noted reader writer met →
      depth reader writer met r w ≤ fuel →
      Finishes reader writer (checkForms reader writer fuel r w path) met := by
  induction fuel with
  | zero =>
    intro r _ w _ path met _ enough
    have := reach_pos r
    unfold depth at enough
    omega
  | succ fuel ih =>
    intro r hr w hw path met noted enough
    have hr' : reader.resolve r ∈ reader.nodes := Form.resolve_mem_nodes hr
    have hw' : writer.resolve w ∈ writer.nodes := Form.resolve_mem_nodes hw
    have grounded := linkedR.grounded r hr
    have groundedW := linkedW.grounded w hw
    have same := reach_resolve reader r
    have sameW := reach_resolve writer w
    unfold Finishes
    rw [checkForms_succ]
    generalize reader.resolve r = a at hr' grounded same ⊢
    generalize writer.resolve w = b at hw' groundedW sameW ⊢
    -- A check of parts with less reach finishes, once some pairs more have been met.
    have part : ∀ c ∈ reader.nodes, ∀ d ∈ writer.nodes, reach c + reach d < reach a + reach b →
        ∀ path x, Noted reader writer x ∧ met.length ≤ x.length →
          ∃ vs y, checkForms reader writer fuel c d path x = .ok (vs, y) ∧
            (Noted reader writer y ∧ met.length ≤ y.length) := by
      intro c hc d hd lower path x ⟨notedX, more⟩
      have shallow := @depth_part reader writer met x more r w c d (by omega)
      obtain ⟨vs, y, ok, notedY, grown⟩ := ih c hc d hd path x notedX (by omega)
      exact ⟨vs, y, ok, notedY, Nat.le_trans more grown⟩
    have turns : Turn a b :=
      turn grounded groundedW (linkedR.tidy a hr') (linkedW.tidy b hw')
    have start : Noted reader writer met ∧ met.length ≤ met.length := ⟨noted, Nat.le_refl _⟩
    cases turns with
    | writerUnion _ branches =>
      rw [checkTypes_writerUnion _ _ grounded]
      refine checkAll_total (fun c mem => ?_) start
      have lower := reach_branch mem
      exact part a hr' c (Form.branch_mem_nodes hw' mem) (by omega) path
    | readerUnion branches _ single =>
      obtain ⟨v, outcome⟩ := checkTypes_readerUnion
        (check (enter [] reader.nodes) (enter [] writer.nodes) fuel) path branches groundedW single
      rw [outcome]
      have each : ∀ c ∈ branches, ∃ vs y,
          checkForms reader writer fuel c b path met = .ok (vs, y) ∧
            (Noted reader writer y ∧ met.length ≤ y.length) := by
        intro c mem
        have lower := reach_branch mem
        exact part c (Form.branch_mem_nodes hr' mem) b hw' (by omega) path met start
      obtain ⟨found, after, tried, kept⟩ : ∃ found after,
          checkSome (fun c => check (enter [] reader.nodes) (enter [] writer.nodes) fuel c b.toJson
            path) (branches.map Form.toJson) met = .ok (found, after) ∧
            (Noted reader writer after ∧ met.length ≤ after.length) :=
        checkSome_total start each
      rw [Run.bind_of_ok tried]
      cases found with
      | true => exact ⟨_, after, rfl, kept⟩
      | false => exact ⟨_, after, rfl, kept⟩
    | arrays c d =>
      rw [checkTypes_arrays]
      have lower := reach_items c
      have lowerW := reach_items d
      exact part c (Form.items_mem_nodes hr') d (Form.items_mem_nodes hw') (by omega) _ met start
    | maps c d =>
      rw [checkTypes_maps]
      have lower := reach_values c
      have lowerW := reach_values d
      exact part c (Form.values_mem_nodes hr') d (Form.values_mem_nodes hw') (by omega) _ met start
    | records isError isError' n m aliases aliases' fields fields' =>
      exact finishes_records linkedR linkedW textual hr' hw' noted enough ih path
    | leaf _ _ _ _ settled =>
      obtain ⟨violations, ok⟩ := settled.returns (textual.types _ hr') _ path met
      exact ⟨violations, met, ok, start⟩

/-- The budget is enough. -/
theorem depth_le_budget (reader writer : Form) :
    depth reader writer [] reader writer ≤
      budget (enter [] reader.nodes) (enter [] writer.nodes) reader.toJson writer.toJson := by
  have lightR := reach_le_weight reader
  have lightW := reach_le_weight writer
  unfold depth budget pairCount
  rw [List.length_nil, Nat.sub_zero, Nat.succ_mul]
  omega

end

end AvroRegistry.Compatibility
