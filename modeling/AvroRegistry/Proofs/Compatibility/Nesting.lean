import AvroRegistry.Proofs.Compatibility.Budget
import AvroRegistry.Proofs.Compatibility.Fuel
import AvroRegistry.Proofs.Compatibility.Verdict
import Mathlib.Data.Finset.Card
import Mathlib.Data.Finset.Prod

/-!
# How deep a check is nested

`Calls` says which calls of a check are made by one of its calls, with the pairs met by then: those
before it in the same body have come to a result. A chain of calls, each made by the one before it,
is what is active at one time.

Along a chain the pairs met only grow. A branch of a reader union that fails puts them back as they
were before that branch, which is no earlier than the call that tries the branches, so it never
drops a pair that an active call has added. Hence a pair of records is entered once in a chain, and
`room`, the number of pairs of record names that are not met, shrinks at each of them. In between a
call only goes down inside its two types, by `extent`. This bounds the chains (`Nested.length_le`).
A check that exhausts its fuel has a chain longer than the fuel (`exists_chain_of_exhausted`), so
fuel for the longest chain is as good as no bound at all.

None of this asks for names to be defined once, or for a check to find nothing.
-/

namespace AvroRegistry.Compatibility

open Schema (Form FieldHead)

/-! ## Calls -/

/-- A call of the check: two types of two schemas, their place, and the pairs met before it. -/
structure Call where
  reader : Form
  writer : Form
  path : String
  met : Met

/-- What a call does, given fuel. -/
def Call.run (reader writer : Form) (fuel : Nat) (c : Call) :
    Except Breakdown (List Violation × Met) :=
  checkForms reader writer fuel c.reader c.writer c.path c.met

/-- A call of the check of two types that occur in the schemas. -/
structure Within (reader writer : Form) (c : Call) : Prop where
  reader : c.reader ∈ reader.nodes
  writer : c.writer ∈ writer.nodes

/-- A call makes another one, unless an alias that is no text has ended it before. -/
inductive Calls (reader writer : Form) (c : Call) : Call → Prop where
  /-- The check of a branch of the writer, after those before it. -/
  | writerBranch {before : List Form} {b : Form} {after : List Form} {fuel : Nat}
      {violations : List Violation} {met : Met}
      (union : writer.resolve c.writer = .union (before ++ b :: after))
      (earlier : checkAll (fun v => check (enter [] reader.nodes) (enter [] writer.nodes) fuel
        (reader.resolve c.reader).toJson v c.path) (before.map Form.toJson) c.met =
          .ok (violations, met)) :
      Calls reader writer c ⟨reader.resolve c.reader, b, c.path, met⟩
  /-- The check of a branch of the reader, after those before it were tried in vain. -/
  | readerBranch {before : List Form} {b : Form} {after : List Form} {fuel : Nat}
      (single : ¬ IsUnion (writer.resolve c.writer))
      (union : reader.resolve c.reader = .union (before ++ b :: after))
      (earlier : checkSome (fun v => check (enter [] reader.nodes) (enter [] writer.nodes) fuel
        v (writer.resolve c.writer).toJson c.path) (before.map Form.toJson) c.met =
          .ok (false, c.met)) :
      Calls reader writer c ⟨b, writer.resolve c.writer, c.path, c.met⟩
  | items {r w : Form} (reads : reader.resolve c.reader = .array r)
      (writes : writer.resolve c.writer = .array w) :
      Calls reader writer c ⟨r, w, c.path ++ "/items", c.met⟩
  | values {r w : Form} (reads : reader.resolve c.reader = .map r)
      (writes : writer.resolve c.writer = .map w) :
      Calls reader writer c ⟨r, w, c.path ++ "/values", c.met⟩
  /-- The check of a field of a new pair of records and its counterpart, after the fields before
  it. -/
  | field {isError isError' : Bool} {n m : String} {aliases aliases' : List Json}
      {before : List (FieldHead × Form)} {f : FieldHead × Form}
      {after fields : List (FieldHead × Form)} {g : FieldHead × Form} {fuel : Nat}
      {result : List Violation × List Json} {met : Met}
      (reads : reader.resolve c.reader = .record isError n aliases (before ++ f :: after))
      (writes : writer.resolve c.writer = .record isError' m aliases' fields)
      (names : NamesAgree n aliases m) (new : (n, m) ∉ c.met)
      (earlier : checkFields (check (enter [] reader.nodes) (enter [] writer.nodes) fuel) c.path
        (fields.map entry) (before.map fieldJson) ((n, m) :: c.met) = .ok (result, met))
      (found : counterpart? fields f.1 = some g) :
      Calls reader writer c ⟨f.2, g.2, typePath c.path f, met⟩

/-- A call gets past the test of the pairs met: it comes to two records that may be matched, and
their pair of names is new. -/
def Enters (reader writer : Form) (c : Call) (pair : String × String) : Prop :=
  ∃ isError aliases fields isError' aliases' fields',
    reader.resolve c.reader = .record isError pair.1 aliases fields ∧
    writer.resolve c.writer = .record isError' pair.2 aliases' fields' ∧
    NamesAgree pair.1 aliases pair.2 ∧ pair ∉ c.met

/-- Calls of types of the schemas that are active at one time, the outermost first: each makes the
next one. -/
structure Nested (reader writer : Form) (chain : List Call) : Prop where
  first : ∀ c ∈ chain.head?, Within reader writer c
  calls : chain.IsChain (Calls reader writer)

section

variable {reader writer : Form} {c d : Call}

theorem Calls.within (h : Calls reader writer c d) (inside : Within reader writer c) :
    Within reader writer d := by
  have hr := Form.resolve_mem_nodes inside.reader
  have hw := Form.resolve_mem_nodes inside.writer
  cases h with
  | writerBranch union =>
    rw [union] at hw
    exact ⟨hr, Form.branch_mem_nodes hw (by simp)⟩
  | readerBranch _ union =>
    rw [union] at hr
    exact ⟨Form.branch_mem_nodes hr (by simp), hw⟩
  | items reads writes =>
    rw [reads] at hr
    rw [writes] at hw
    exact ⟨Form.items_mem_nodes hr, Form.items_mem_nodes hw⟩
  | values reads writes =>
    rw [reads] at hr
    rw [writes] at hw
    exact ⟨Form.values_mem_nodes hr, Form.values_mem_nodes hw⟩
  | field reads writes _ _ _ found =>
    rw [reads] at hr
    rw [writes] at hw
    exact ⟨Form.type_mem_nodes hr (by simp), Form.type_mem_nodes hw (counterpart?_mem found)⟩

theorem Nested.tail {chain : List Call} (h : Nested reader writer (c :: d :: chain)) :
    Calls reader writer c d ∧ Nested reader writer (d :: chain) := by
  obtain ⟨made, calls⟩ := List.isChain_cons_cons.1 h.calls
  refine ⟨made, ⟨fun e mem => ?_, calls⟩⟩
  cases mem
  exact made.within (h.first c rfl)

/-! ## The pairs met grow along a chain -/

/-- Whatever meeting a pair of names does to the pairs met is done by a check, whatever it finds.
The induction is on its nesting. -/
theorem checkForms_onward {extends_ : Met → Met → Prop} (refl : ∀ met, extends_ met met)
    (trans : ∀ {a b c}, extends_ a b → extends_ b c → extends_ a c)
    (meets : ∀ met, ∀ n ∈ reader.definedNames, ∀ m ∈ writer.definedNames,
      extends_ met ((n, m) :: met))
    (linkedR : Linked reader) (linkedW : Linked writer) (fuel : Nat) :
    ∀ r ∈ reader.nodes, ∀ w ∈ writer.nodes, ∀ path met violations met',
      checkForms reader writer fuel r w path met = .ok (violations, met') →
        extends_ met met' := by
  induction fuel with
  | zero =>
    intro r _ w _ path met violations met' ok
    cases ok
  | succ fuel ih =>
    intro r hr w hw path met violations met' ok
    have hr' : reader.resolve r ∈ reader.nodes := Form.resolve_mem_nodes hr
    have hw' : writer.resolve w ∈ writer.nodes := Form.resolve_mem_nodes hw
    have grounded := linkedR.grounded r hr
    have groundedW := linkedW.grounded w hw
    rw [checkForms_succ] at ok
    generalize reader.resolve r = a at hr' grounded ok
    generalize writer.resolve w = b at hw' groundedW ok
    have turns : Turn a b :=
      turn grounded groundedW (linkedR.tidy a hr') (linkedW.tidy b hw')
    cases turns with
    | writerUnion _ branches =>
      rw [checkTypes_writerUnion _ _ grounded] at ok
      exact checkAll_onward refl trans (fun c mem =>
        ih a hr' c (Form.branch_mem_nodes hw' mem) path) ok
    | readerUnion branches _ single =>
      obtain ⟨v, outcome⟩ := checkTypes_readerUnion
        (check (enter [] reader.nodes) (enter [] writer.nodes) fuel) path branches groundedW single
      rw [outcome] at ok
      obtain ⟨found, after, tried, last⟩ := Run.bind_eq_ok.1 ok
      rcases checkSome_eq_ok tried with ⟨rfl, c, mem, passed⟩ | ⟨rfl, rfl, -⟩
      · cases last
        exact ih c (Form.branch_mem_nodes hr' mem) b hw' path met [] met' passed
      · cases last
        exact refl _
    | arrays c d =>
      rw [checkTypes_arrays] at ok
      exact ih c (Form.items_mem_nodes hr') d (Form.items_mem_nodes hw') _ met violations met' ok
    | maps c d =>
      rw [checkTypes_maps] at ok
      exact ih c (Form.values_mem_nodes hr') d (Form.values_mem_nodes hw') _ met violations met' ok
    | records isError isError' n m aliases aliases' fields fields' =>
      rw [checkTypes_records] at ok
      have names := namesMatch_named (linkedR.tidy _ hr') (linkedW.tidy _ hw') rfl rfl
      rcases checkNamed_eq_ok names ok with ⟨-, ok⟩ | ⟨-, -, rfl⟩
      · by_cases there : (n, m) ∈ met
        · rw [checkRecord_met there] at ok
          cases ok
          exact refl _
        · have named : n ∈ reader.definedNames := List.mem_filterMap.2 ⟨_, hr', rfl⟩
          have namedW : m ∈ writer.definedNames := List.mem_filterMap.2 ⟨_, hw', rfl⟩
          exact trans (meets met n named m namedW) (checkRecord_onward refl trans there
            (linkedR.tidy _ hr').2.keys (linkedW.tidy _ hw').2
            (fun f hf g hg => ih f.2 (Form.type_mem_nodes hr' hf) g.2 (Form.type_mem_nodes hw' hg))
            ok)
      · exact refl _
    | leaf _ _ _ _ settled =>
      obtain ⟨rfl, -⟩ := settled.settles _ _ (Passed reader writer []) _ _ _ ok
      exact refl _

/-- A check that gives a result keeps the pairs met. -/
theorem checkForms_keeps (linkedR : Linked reader) (linkedW : Linked writer) (fuel : Nat) :
    ∀ r ∈ reader.nodes, ∀ w ∈ writer.nodes, ∀ path met violations met',
      checkForms reader writer fuel r w path met = .ok (violations, met') → met ⊆ met' :=
  checkForms_onward List.Subset.refl List.Subset.trans
    (fun met _ _ _ _ => List.subset_cons_self _ met) linkedR linkedW fuel

/-- A call is made with the pairs met by the call that makes it, and with the pair that one
enters. -/
theorem Calls.keeps (linkedR : Linked reader) (linkedW : Linked writer)
    (inside : Within reader writer c) (h : Calls reader writer c d) :
    c.met ⊆ d.met ∧ ∀ pair, Enters reader writer c pair → pair ∈ d.met := by
  have hr := Form.resolve_mem_nodes inside.reader
  have hw := Form.resolve_mem_nodes inside.writer
  cases h with
  | @writerBranch before b after fuel vs met union earlier =>
    rw [union] at hw
    refine ⟨checkAll_onward List.Subset.refl List.Subset.trans (fun w mem =>
      checkForms_keeps linkedR linkedW fuel _ hr w (Form.branch_mem_nodes hw (by simp [mem]))
        c.path)
      earlier, ?_⟩
    rintro pair ⟨_, _, _, _, _, _, -, writes, -⟩
    rw [union] at writes
    cases writes
  | readerBranch single union earlier =>
    refine ⟨List.Subset.refl _, ?_⟩
    rintro pair ⟨_, _, _, _, _, _, reads, -⟩
    rw [union] at reads
    cases reads
  | items reads writes =>
    refine ⟨List.Subset.refl _, ?_⟩
    rintro pair ⟨_, _, _, _, _, _, reads', -⟩
    rw [reads] at reads'
    cases reads'
  | values reads writes =>
    refine ⟨List.Subset.refl _, ?_⟩
    rintro pair ⟨_, _, _, _, _, _, reads', -⟩
    rw [reads] at reads'
    cases reads'
  | @field _ _ n m _ _ before f after fields g fuel result met reads writes names new earlier
      found =>
    rw [reads] at hr
    rw [writes] at hw
    have keys := (linkedR.tidy _ hr).2.keys
    have onward : (n, m) :: c.met ⊆ met :=
      checkFields_onward List.Subset.refl List.Subset.trans
        (fun f mem => keys f (List.mem_append_left _ mem))
        (fun f hf g hg => checkForms_keeps linkedR linkedW fuel _
          (Form.type_mem_nodes hr (List.mem_append_left _ hf)) _ (Form.type_mem_nodes hw hg))
        earlier
    refine ⟨fun pair mem => onward (List.mem_cons_of_mem _ mem), ?_⟩
    rintro ⟨k, l⟩ ⟨_, _, _, _, _, _, reads', writes', -⟩
    rw [reads] at reads'
    rw [writes] at writes'
    cases reads'
    cases writes'
    exact onward List.mem_cons_self

/-- What is met in a call, and the pair it enters, is met in every call inside it. -/
theorem Nested.keeps (linkedR : Linked reader) (linkedW : Linked writer) {chain : List Call}
    (h : Nested reader writer (c :: chain)) :
    ∀ d ∈ chain, c.met ⊆ d.met ∧ ∀ pair, Enters reader writer c pair → pair ∈ d.met := by
  induction chain generalizing c with
  | nil => simp
  | cons e rest ih =>
    obtain ⟨made, inner⟩ := h.tail
    obtain ⟨kept, entered⟩ := made.keeps linkedR linkedW (h.first c rfl)
    intro d mem
    rcases List.mem_cons.1 mem with rfl | later
    · exact ⟨kept, entered⟩
    · have further := (ih inner d later).1
      exact ⟨List.Subset.trans kept further, fun pair enters => further (entered pair enters)⟩

/-- No pair of records is entered twice in a chain. -/
theorem Nested.entered_once (linkedR : Linked reader) (linkedW : Linked writer) {chain : List Call}
    (h : Nested reader writer chain) :
    chain.Pairwise fun c d =>
      ∀ pair, Enters reader writer c pair → ¬ Enters reader writer d pair := by
  induction chain with
  | nil => exact .nil
  | cons c rest ih =>
    refine List.pairwise_cons.2 ⟨fun d mem pair enters again => ?_, ?_⟩
    · obtain ⟨_, _, _, _, _, _, -, -, -, new⟩ := again
      exact new ((h.keeps linkedR linkedW d mem).2 pair enters)
    · cases rest with
      | nil => exact .nil
      | cons d rest => exact ih h.tail.2

/-! ## The bound -/

/-- How far calls can go down inside a type before they come to a named type or a primitive one. -/
def extent : Form → Nat
  | .union branches => (Form.union branches).nodes.length
  | .array items => (Form.array items).nodes.length
  | .map values => (Form.map values).nodes.length
  | _ => 1

theorem nodes_pos (form : Form) : 0 < form.nodes.length :=
  List.length_pos_of_mem form.self_mem_nodes

theorem extent_pos (form : Form) : 0 < extent form := by
  cases form with
  | union branches => exact nodes_pos _
  | array items => exact nodes_pos _
  | map values => exact nodes_pos _
  | _ => exact Nat.one_pos

theorem extent_le_nodes (form : Form) : extent form ≤ form.nodes.length := by
  cases form with
  | union branches => exact Nat.le_refl _
  | array items => exact Nat.le_refl _
  | map values => exact Nat.le_refl _
  | _ => exact nodes_pos _

/-- A type in a schema extends no further than the schema. -/
theorem extent_le_root {root node : Form} (mem : node ∈ root.nodes) :
    extent node ≤ root.nodes.length :=
  Nat.le_trans (extent_le_nodes node) (Form.nodes_segment mem).length_le

theorem extent_branch {branches : List Form} {b : Form} (mem : b ∈ branches) :
    extent b < extent (.union branches) := by
  have inside := (Form.branch_segment mem).length_le
  have short := extent_le_nodes b
  show extent b < (Form.union branches).nodes.length
  rw [Form.nodes_union, List.length_cons]
  omega

theorem extent_items (items : Form) : extent items < extent (.array items) :=
  Nat.lt_succ_of_le (extent_le_nodes items)

theorem extent_values (values : Form) : extent values < extent (.map values) :=
  Nat.lt_succ_of_le (extent_le_nodes values)

/-- What a type stands for extends as far as the type. -/
theorem extent_resolve (root node : Form) : extent (root.resolve node) = extent node := by
  cases node with
  | name n =>
    rw [Form.resolve]
    split
    · rfl
    · cases found : root.definition? n with
      | none => rfl
      | some definition =>
        obtain ⟨-, defines⟩ := Form.definition?_eq_some found
        show extent definition = 1
        cases definition with
        | record _ _ _ _ => rfl
        | enumeration _ _ _ _ => rfl
        | fixed _ _ _ _ => rfl
        | _ => cases defines
  | _ => rfl

/-- The full name of a record. -/
def recordName? : Form → Option String
  | .record _ full _ _ => some full
  | _ => none

/-- The full names of the records in a schema. -/
def recordNames (form : Form) : Finset String := (form.nodes.filterMap recordName?).toFinset

theorem mem_recordNames {form : Form} {isError : Bool} {n : String} {aliases : List Json}
    {fields : List (FieldHead × Form)} (mem : .record isError n aliases fields ∈ form.nodes) :
    n ∈ recordNames form :=
  List.mem_toFinset.2 (List.mem_filterMap.2 ⟨_, mem, rfl⟩)

/-- The pairs of names of a record of the reader and a record of the writer. -/
def recordPairs (reader writer : Form) : Finset (String × String) :=
  recordNames reader ×ˢ recordNames writer

/-- The number of pairs of records that are not met. -/
def room (reader writer : Form) (met : Met) : Nat :=
  (recordPairs reader writer \ met.toFinset).card

/-- How many calls there can be from a call on: each pair of records that is still new lets it go
down through both schemas once more. -/
def remaining (reader writer : Form) (c : Call) : Nat :=
  room reader writer c.met * (reader.nodes.length + writer.nodes.length) +
    (extent c.reader + extent c.writer)

/-- The length that no chain of calls exceeds. -/
def nestingBound (reader writer : Form) : Nat :=
  ((recordPairs reader writer).card + 1) * (reader.nodes.length + writer.nodes.length)

theorem unmet_subset {met met' : Met} (sub : met ⊆ met') :
    recordPairs reader writer \ met'.toFinset ⊆ recordPairs reader writer \ met.toFinset :=
  Finset.sdiff_subset_sdiff (Finset.Subset.refl _) fun _ mem =>
    List.mem_toFinset.2 (sub (List.mem_toFinset.1 mem))

theorem room_mono {met met' : Met} (sub : met ⊆ met') :
    room reader writer met' ≤ room reader writer met :=
  Finset.card_le_card (unmet_subset sub)

/-- Where a new pair of records has been met, there is less room. -/
theorem room_lt {met met' : Met} (sub : met ⊆ met') {pair : String × String}
    (named : pair ∈ recordPairs reader writer) (new : pair ∉ met) (there : pair ∈ met') :
    room reader writer met' < room reader writer met := by
  refine Finset.card_lt_card (Finset.ssubset_iff_subset_ne.2 ⟨unmet_subset sub, fun same => ?_⟩)
  have left : pair ∈ recordPairs reader writer \ met.toFinset :=
    Finset.mem_sdiff.2 ⟨named, fun mem => new (List.mem_toFinset.1 mem)⟩
  rw [← same] at left
  exact (Finset.mem_sdiff.1 left).2 (List.mem_toFinset.2 there)

theorem remaining_le_bound (inside : Within reader writer c) :
    remaining reader writer c ≤ nestingBound reader writer := by
  have room_le : room reader writer c.met ≤ (recordPairs reader writer).card :=
    Finset.card_le_card Finset.sdiff_subset
  have low := extent_le_root inside.reader
  have lowW := extent_le_root inside.writer
  unfold remaining nestingBound
  have wide := Nat.mul_le_mul_right (reader.nodes.length + writer.nodes.length) room_le
  rw [Nat.succ_mul]
  omega

/-- A call that goes down inside the types of the one that makes it leaves less to go. -/
theorem remaining_part (sub : c.met ⊆ d.met)
    (lower : extent d.reader + extent d.writer <
      extent (reader.resolve c.reader) + extent (writer.resolve c.writer)) :
    remaining reader writer d < remaining reader writer c := by
  have less : room reader writer d.met ≤ room reader writer c.met := room_mono sub
  have fewer := Nat.mul_le_mul_right (reader.nodes.length + writer.nodes.length) less
  rw [extent_resolve, extent_resolve] at lower
  exact Nat.add_lt_add_of_le_of_lt fewer lower

/-- A call behind a new pair of records leaves less to go, whatever its types are. -/
theorem remaining_new (inside : Within reader writer d) (sub : c.met ⊆ d.met)
    {pair : String × String} (named : pair ∈ recordPairs reader writer) (new : pair ∉ c.met)
    (there : pair ∈ d.met) : remaining reader writer d < remaining reader writer c := by
  have less := room_lt sub named new there
  have low := extent_le_root inside.reader
  have lowW := extent_le_root inside.writer
  have positive := extent_pos c.reader
  unfold remaining
  have fewer := Nat.mul_le_mul_right (reader.nodes.length + writer.nodes.length) less
  rw [Nat.succ_mul] at fewer
  omega

/-- Every call made leaves less to go. -/
theorem Calls.remaining_lt (linkedR : Linked reader) (linkedW : Linked writer)
    (inside : Within reader writer c) (h : Calls reader writer c d) :
    remaining reader writer d < remaining reader writer c := by
  obtain ⟨kept, entered⟩ := h.keeps linkedR linkedW inside
  have within := h.within inside
  have hr := Form.resolve_mem_nodes inside.reader
  have hw := Form.resolve_mem_nodes inside.writer
  cases h with
  | @writerBranch before b after _ _ _ union earlier =>
    refine remaining_part kept (Nat.add_lt_add_left ?_ _)
    rw [union]
    exact extent_branch (by simp)
  | @readerBranch before b after _ single union earlier =>
    refine remaining_part kept (Nat.add_lt_add_right ?_ _)
    rw [union]
    exact extent_branch (by simp)
  | items reads writes =>
    refine remaining_part kept ?_
    rw [reads, writes]
    exact Nat.add_lt_add (extent_items _) (extent_items _)
  | values reads writes =>
    refine remaining_part kept ?_
    rw [reads, writes]
    exact Nat.add_lt_add (extent_values _) (extent_values _)
  | @field _ _ n m _ _ _ _ _ _ _ _ _ _ reads writes names new earlier found =>
    have enters : Enters reader writer c (n, m) := ⟨_, _, _, _, _, _, reads, writes, names, new⟩
    rw [reads] at hr
    rw [writes] at hw
    have named : (n, m) ∈ recordPairs reader writer :=
      Finset.mem_product.2 ⟨mem_recordNames hr, mem_recordNames hw⟩
    exact remaining_new within kept named new (entered _ enters)

theorem Nested.length_le_remaining (linkedR : Linked reader) (linkedW : Linked writer)
    {chain : List Call} (h : Nested reader writer (c :: chain)) :
    (c :: chain).length ≤ remaining reader writer c := by
  induction chain generalizing c with
  | nil =>
    have positive := extent_pos c.reader
    unfold remaining
    rw [List.length_singleton]
    omega
  | cons d rest ih =>
    obtain ⟨made, inner⟩ := h.tail
    have short := ih inner
    have less := made.remaining_lt linkedR linkedW (h.first c rfl)
    rw [List.length_cons]
    omega

/-- No chain of calls is longer than the bound. -/
theorem Nested.length_le (linkedR : Linked reader) (linkedW : Linked writer) {chain : List Call}
    (h : Nested reader writer chain) : chain.length ≤ nestingBound reader writer := by
  cases chain with
  | nil => exact Nat.zero_le _
  | cons c rest =>
    exact Nat.le_trans (h.length_le_remaining linkedR linkedW) (remaining_le_bound (h.first c rfl))

/-! ## Exhausted checks -/

/-- A comparison of names never exhausts the fuel. -/
theorem leaf_not_exhausted {path : String} {met : Met} {n m : String} {aliases : List Json}
    {r w : Json}
    {violations : List Violation} (names : namesMatch r w = nameVerdict n aliases m) :
    checkNamed r w path (pureStep (.ok violations)) met ≠ .error .exhausted := by
  intro broke
  rcases checkNamed_eq_error names broke with other | ⟨-, inside⟩
  · cases other
  · cases inside

/-- A call that exhausts its fuel makes one that exhausts what is left of it. -/
theorem exists_call_of_exhausted (linkedR : Linked reader) (linkedW : Linked writer) {fuel : Nat}
    (inside : Within reader writer c) (ends : c.run reader writer (fuel + 1) = .error .exhausted) :
    ∃ d, Calls reader writer c d ∧ d.run reader writer fuel = .error .exhausted := by
  have hr := Form.resolve_mem_nodes inside.reader
  have hw := Form.resolve_mem_nodes inside.writer
  have grounded := linkedR.grounded _ inside.reader
  have groundedW := linkedW.grounded _ inside.writer
  have tidyR := linkedR.tidy _ hr
  have tidyW := linkedW.tidy _ hw
  unfold Call.run at ends
  rw [checkForms_succ] at ends
  generalize reads : reader.resolve c.reader = a at *
  generalize writes : writer.resolve c.writer = b at *
  cases pairShape grounded groundedW with
  | writerUnion _ branches =>
    rw [checkTypes_writerUnion _ _ grounded] at ends
    obtain ⟨before, w, after, vs, between, rfl, earlier, ends⟩ := checkAll_eq_error ends
    subst reads
    exact ⟨_, .writerBranch writes earlier, ends⟩
  | readerUnion branches _ single =>
    obtain ⟨v, outcome⟩ := checkTypes_readerUnion
      (check (enter [] reader.nodes) (enter [] writer.nodes) fuel) c.path branches groundedW single
    rw [outcome] at ends
    rcases Run.bind_eq_error.1 ends with tried | ⟨found, after, -, last⟩
    · obtain ⟨before, r, after, rfl, earlier, ends⟩ := checkSome_eq_error tried
      subst writes
      exact ⟨_, .readerBranch single reads earlier, ends⟩
    · cases found with
      | true => cases last
      | false => cases last
  | arrays r w =>
    rw [checkTypes_arrays] at ends
    exact ⟨_, .items reads writes, ends⟩
  | maps r w =>
    rw [checkTypes_maps] at ends
    exact ⟨_, .values reads writes, ends⟩
  | records isError isError' n m aliases aliases' fields fields' =>
    rw [checkTypes_records] at ends
    rcases checkNamed_eq_error (namesMatch_named tidyR tidyW rfl rfl) ends with
      other | ⟨agree, ends⟩
    · cases other
    · obtain ⟨new, other | ⟨before, f, after, g, result, between, rfl, earlier, found, ends⟩⟩ :=
        checkRecord_eq_error tidyR.2.keys tidyW.2 ends
      · cases other
      · exact ⟨_, .field reads writes agree new earlier found, ends⟩
  | enums =>
    rw [checkTypes_enums (check (enter [] reader.nodes) (enter [] writer.nodes) fuel) c.path
      _ _ _ _ _ _ tidyR.1 tidyW.1] at ends
    exact absurd ends (leaf_not_exhausted (namesMatch_named tidyR tidyW rfl rfl))
  | fixeds =>
    rw [checkTypes_fixeds (check (enter [] reader.nodes) (enter [] writer.nodes) fuel) c.path
      _ _ _ _ _ _ tidyR tidyW] at ends
    exact absurd ends (leaf_not_exhausted (namesMatch_named tidyR tidyW rfl rfl))
  | primitives _ _ p known primitiveR primitiveW =>
    rw [checkTypes_primitives _ _ known primitiveR primitiveW] at ends
    cases ends
  | apart _ _ plainR plainW differ =>
    obtain ⟨_, _, outcome⟩ := checkTypes_apart
      (check (enter [] reader.nodes) (enter [] writer.nodes) fuel) c.path grounded groundedW plainR
      plainW differ
    rw [outcome] at ends
    cases ends

/-- A call that exhausts its fuel has a chain of calls in it that is as long. -/
theorem exists_chain_of_exhausted (linkedR : Linked reader) (linkedW : Linked writer) {fuel : Nat}
    (inside : Within reader writer c) (ends : c.run reader writer fuel = .error .exhausted) :
    ∃ rest : List Call, rest.length = fuel ∧ Nested reader writer (c :: rest) := by
  induction fuel generalizing c with
  | zero =>
    refine ⟨[], rfl, ⟨fun d mem => ?_, .singleton c⟩⟩
    cases mem
    exact inside
  | succ fuel ih =>
    obtain ⟨d, made, ends⟩ := exists_call_of_exhausted linkedR linkedW inside ends
    obtain ⟨rest, length, nested⟩ := ih (made.within inside) ends
    refine ⟨d :: rest, by rw [List.length_cons, length], ⟨fun e mem => ?_, ?_⟩⟩
    · cases mem
      exact inside
    · exact List.isChain_cons_cons.2 ⟨made, nested.calls⟩

theorem run_not_exhausted (linkedR : Linked reader) (linkedW : Linked writer) {fuel : Nat}
    (enough : nestingBound reader writer ≤ fuel) (inside : Within reader writer c) :
    c.run reader writer fuel ≠ .error .exhausted := by
  intro ends
  obtain ⟨rest, length, nested⟩ := exists_chain_of_exhausted linkedR linkedW inside ends
  have short := nested.length_le linkedR linkedW
  rw [List.length_cons] at short
  omega

/-- Beyond the bound, fuel makes no difference. -/
theorem run_eq_of_le (linkedR : Linked reader) (linkedW : Linked writer) {fuel more : Nat}
    (enough : nestingBound reader writer ≤ fuel) (le : fuel ≤ more)
    (inside : Within reader writer c) : c.run reader writer more = c.run reader writer fuel :=
  check_mono _ _ le _ _ _ _ (run_not_exhausted linkedR linkedW enough inside)

/-- A value weighs at least as much as it has types. -/
theorem nodes_le_weight (form : Form) : form.nodes.length ≤ weight form.toJson := by
  induction form using Form.induct with
  | union branches ih =>
    rw [Form.nodes_union, List.length_cons, Schema.toJson_union, weight]
    suffices (branches.flatMap Form.nodes).length ≤ weightItems (branches.map Form.toJson) by omega
    induction branches with
    | nil => exact Nat.le_refl _
    | cons b rest ihRest =>
      have first := ih b List.mem_cons_self
      have others := ihRest fun c mem => ih c (List.mem_cons_of_mem _ mem)
      rw [List.flatMap_cons, List.length_append, List.map_cons, weightItems]
      omega
  | array items ih =>
    have inside := weight_items items
    show items.nodes.length + 1 ≤ _
    omega
  | map values ih =>
    have inside := weight_values values
    show values.nodes.length + 1 ≤ _
    omega
  | record isError full aliases fields ih =>
    have listed := weight_fields isError full aliases fields
    rw [weight] at listed
    rw [Form.nodes_record, List.length_cons]
    suffices (fields.flatMap fun f => f.2.nodes).length ≤ weightItems (fields.map fieldJson) by
      omega
    clear listed
    induction fields with
    | nil => exact Nat.le_refl _
    | cons f rest ihRest =>
      have first := ih f List.mem_cons_self
      have others := ihRest fun g mem => ih g (List.mem_cons_of_mem _ mem)
      have type := weight_field f
      rw [List.flatMap_cons, List.length_append, List.map_cons, weightItems]
      omega
  | _ => exact weight_pos _

theorem recordNames_card_le (form : Form) :
    (recordNames form).card ≤ (enter [] form.nodes).length := by
  have collected : recordNames form ⊆ (Json.keys (enter [] form.nodes)).toFinset := by
    intro n mem
    obtain ⟨node, inside, names⟩ := List.mem_filterMap.1 (List.mem_toFinset.1 mem)
    refine List.mem_toFinset.2 (mem_keys_names inside ?_)
    cases node with
    | record _ _ _ _ => exact names
    | _ => cases names
  have short := List.toFinset_card_le (Json.keys (enter [] form.nodes))
  rw [Json.keys, List.length_map] at short
  exact Nat.le_trans (Finset.card_le_card collected) short

theorem bound_le_budget (reader writer : Form) :
    nestingBound reader writer ≤
      budget (enter [] reader.nodes) (enter [] writer.nodes) reader.toJson writer.toJson := by
  unfold nestingBound recordPairs budget
  rw [Finset.card_product]
  exact Nat.mul_le_mul
    (Nat.succ_le_succ (Nat.mul_le_mul (recordNames_card_le reader) (recordNames_card_le writer)))
    (Nat.add_le_add (nodes_le_weight reader) (nodes_le_weight writer))

/-- The call that a check of two schemas begins with. -/
def topCall (reader writer : Form) : Call := ⟨reader, writer, "", []⟩

theorem topCall_within (reader writer : Form) : Within reader writer (topCall reader writer) :=
  ⟨reader.self_mem_nodes, writer.self_mem_nodes⟩

/-- The check of two schemas comes to what any fuel for the bound lets it come to. -/
theorem checkReaderWriter_eq_run (linkedR : Linked reader) (linkedW : Linked writer) {fuel : Nat}
    (enough : nestingBound reader writer ≤ fuel) :
    checkReaderWriter reader.toJson writer.toJson =
      ((topCall reader writer).run reader writer fuel).map (·.1) := by
  have inside := topCall_within reader writer
  rw [checkReaderWriter_eq linkedR linkedW,
    run_eq_of_le linkedR linkedW (Nat.le_refl _) enough inside]
  exact congrArg (Except.map (·.1))
    (run_eq_of_le linkedR linkedW (Nat.le_refl _) (bound_le_budget reader writer) inside)

end

/-- A check of two schemas in canonical form is never nested deeper than the bound, and enters no
pair of records inside itself. It comes to an outcome, which any fuel for the bound is enough for:
only a chain of calls can exhaust fuel, and none is that long. -/
theorem nesting_bounded {schemaR schemaW : Json} {r w : Schema.Canonical}
    (okR : Schema.canonicalize schemaR = .ok r) (okW : Schema.canonicalize schemaW = .ok w) :
    (∀ chain, Nested r.form w.form chain →
      chain.Pairwise (fun c d => ∀ pair, Enters r.form w.form c pair →
        ¬ Enters r.form w.form d pair) ∧
      chain.length ≤ nestingBound r.form w.form) ∧
    (∀ fuel c, Within r.form w.form c → c.run r.form w.form fuel = .error .exhausted →
      ∃ rest : List Call, rest.length = fuel ∧ Nested r.form w.form (c :: rest)) ∧
    ∃ outcome, outcome ≠ .error .exhausted ∧
      (∀ fuel, nestingBound r.form w.form ≤ fuel →
        (topCall r.form w.form).run r.form w.form fuel = outcome) ∧
      checkReaderWriter r.value w.value = outcome.map (·.1) := by
  have linkedR := linked_of_canonicalize okR
  have linkedW := linked_of_canonicalize okW
  have inside := topCall_within r.form w.form
  refine ⟨fun chain nested =>
      ⟨nested.entered_once linkedR linkedW, nested.length_le linkedR linkedW⟩,
    fun fuel c within => exists_chain_of_exhausted linkedR linkedW within, ?_⟩
  refine ⟨(topCall r.form w.form).run r.form w.form (nestingBound r.form w.form),
    run_not_exhausted linkedR linkedW (Nat.le_refl _) inside, fun fuel enough => ?_, ?_⟩
  · exact run_eq_of_le linkedR linkedW (Nat.le_refl _) enough inside
  · exact checkReaderWriter_eq_run linkedR linkedW (Nat.le_refl _)

/-- The field of the linked record. -/
def linkedNext : FieldHead × Form :=
  (⟨.str "next", none, [], none⟩, .union [.name "null", .name "list.Node"])

/-- The calls that are active where a check of the linked record against itself comes back to it. -/
def linkedChain : List Call :=
  let met : Met := [("list.Node", "list.Node")]
  let place : String := "/fields/next/type"
  [topCall linkedForm linkedForm, ⟨linkedNext.2, linkedNext.2, place, met⟩,
    ⟨linkedNext.2, .name "list.Node", place, met⟩, ⟨.name "list.Node", linkedForm, place, met⟩]

theorem linkedChain_nested : Nested linkedForm linkedForm linkedChain := by
  refine ⟨fun c mem => ?_, .cons_cons ?_ (.cons_cons ?_ (.cons_cons ?_ (.singleton _)))⟩
  · cases mem
    exact ⟨linkedForm.self_mem_nodes, linkedForm.self_mem_nodes⟩
  · exact @Calls.field _ _ _ false false "list.Node" "list.Node" [] [] [] linkedNext [] [linkedNext]
      linkedNext 0 ([], []) _ rfl rfl (.inl rfl) List.not_mem_nil rfl rfl
  · exact @Calls.writerBranch _ _ _ [.name "null"] _ [] 2 [] _ rfl rfl
  · refine @Calls.readerBranch _ _ _ [.name "null"] _ [] 1 ?_ rfl rfl
    rintro ⟨_, h⟩
    cases h

theorem linkedChain_bounded :
    Schema.canonicalize linkedValue = .ok ⟨linkedForm, linkedValue.encode Json.spaced⟩ ∧
      Nested linkedForm linkedForm linkedChain ∧ linkedChain.length = 4 ∧
      linkedChain.length ≤ nestingBound linkedForm linkedForm ∧
      nestingBound linkedForm linkedForm = 16 ∧
      checkReaderWriter linkedForm.toJson linkedForm.toJson ≠ .error .exhausted := by
  have ok : Schema.canonicalize linkedValue = .ok ⟨linkedForm, linkedValue.encode Json.spaced⟩ :=
    canonicalize_eq (Schema.submitted_value (Json.readable_of_exact (by decide)) rfl rfl) rfl rfl
  obtain ⟨chains, -, outcome, goesOn, -, checked⟩ := nesting_bounded ok ok
  refine ⟨ok, linkedChain_nested, rfl, (chains _ linkedChain_nested).2, by decide, ?_⟩
  intro ends
  have same := checked.symm.trans ends
  cases outcome with
  | error e =>
    cases same
    exact goesOn rfl
  | ok result => cases same

end AvroRegistry.Compatibility
