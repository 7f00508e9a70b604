import AvroRegistry.Proofs.Compatibility.Passes

/-!
# What was met elsewhere does not matter

A check looks among the pairs met for pairs of names of its own two types only. `Framed` compares
two steps of which the second one starts with further pairs met: it does the same and leaves those
pairs alone. Every step of a check respects this in the checks nested in it, and so a check of a
type that occurs in two writers does the same in both, where names in it mean the same and the
further pairs are of names that the smaller writer does not define (`checkForms_framed`).
-/

namespace AvroRegistry.Compatibility

open Schema (Form FieldHead)

/-- The second step does what the first one does, with further pairs met, which it leaves alone. -/
def Framed {α : Type} (extra : Met) (x y : Checking α) : Prop :=
  ∀ met, y (met ++ extra) = (x met).map fun r => (r.1, r.2 ++ extra)

section

variable {α β : Type} {extra met met' : Met}

theorem framed_pure (result : Except Breakdown α) :
    Framed extra (pureStep result) (pureStep result) := by
  intro met
  cases result <;> rfl

theorem Framed.of_ok {x y : Checking α} (framed : Framed extra x y) {a : α}
    (ok : x met = .ok (a, met')) : y (met ++ extra) = .ok (a, met' ++ extra) := by
  rw [framed, ok]
  rfl

theorem Framed.of_error {x y : Checking α} (framed : Framed extra x y) {e : Breakdown}
    (broke : x met = .error e) : y (met ++ extra) = .error e := by
  rw [framed, broke]
  rfl

theorem Framed.bind {x y : Checking α} {f g : α → Checking β} (first : Framed extra x y)
    (then_ : ∀ a, Framed extra (f a) (g a)) : Framed extra (x >>= f) (y >>= g) := by
  intro met
  cases outcome : x met with
  | error e =>
    rw [Run.bind_of_error outcome, Run.bind_of_error (first.of_error outcome)]
    rfl
  | ok result =>
    obtain ⟨a, between⟩ := result
    rw [Run.bind_of_ok outcome, Run.bind_of_ok (first.of_ok outcome)]
    exact then_ a between

end

/-! ## The steps of a check -/

section

variable {α : Type} {value : α → Json} {extra : Met}
  {step step' : Json → Checking (List Violation)} {branches : List α}

theorem framed_checkAll
    (each : ∀ b ∈ branches, Framed extra (step (value b)) (step' (value b))) :
    Framed extra (checkAll step (branches.map value)) (checkAll step' (branches.map value)) := by
  induction branches with
  | nil => exact framed_pure (.ok [])
  | cons b rest ih =>
    refine (each b List.mem_cons_self).bind fun first => ?_
    refine (ih fun c mem => each c (List.mem_cons_of_mem _ mem)).bind fun others => ?_
    exact framed_pure (.ok _)

/-- A branch that fails puts back what was met before it, the further pairs with it. -/
theorem framed_checkSome
    (each : ∀ b ∈ branches, Framed extra (step (value b)) (step' (value b))) :
    Framed extra (checkSome step (branches.map value)) (checkSome step' (branches.map value)) := by
  induction branches with
  | nil => exact framed_pure (.ok false)
  | cons b rest ih =>
    intro met
    have here := each b List.mem_cons_self
    cases outcome : step (value b) met with
    | error e =>
      rw [List.map_cons, checkSome, checkSome, Run.bind_of_ok (Run.get_apply _),
        Run.bind_of_ok (Run.get_apply _), Run.bind_of_error outcome,
        Run.bind_of_error (here.of_error outcome)]
      rfl
    | ok result =>
      obtain ⟨first, between⟩ := result
      rw [checkSome_cons b first between outcome,
        checkSome_cons b first (between ++ extra) (here.of_ok outcome)]
      split
      · rfl
      · exact ih (fun c mem => each c (List.mem_cons_of_mem _ mem)) met

end

theorem framed_checkNamed {extra : Met} (reader writer : Json) (path : String)
    {x y : Checking (List Violation)} (rest : Framed extra x y) :
    Framed extra (checkNamed reader writer path x) (checkNamed reader writer path y) := by
  refine (framed_pure _).bind fun agree => ?_
  split
  · exact rest
  · exact framed_pure (.ok _)

section

variable {extra : Met} {step step' : Json → Json → String → Checking (List Violation)}
  {path : String} {fields fields' : List (FieldHead × Form)}

theorem framed_checkFields (keys : ∀ f ∈ fields, f.1.name.isKey = true)
    (each : ∀ f ∈ fields, ∀ g ∈ fields', ∀ place,
      Framed extra (step f.2.toJson g.2.toJson place) (step' f.2.toJson g.2.toJson place)) :
    Framed extra (checkFields step path (fields'.map entry) (fields.map fieldJson))
      (checkFields step' path (fields'.map entry) (fields.map fieldJson)) := by
  induction fields with
  | nil => exact framed_pure (.ok ([], []))
  | cons f rest ih =>
    have others := ih (fun g mem => keys g (List.mem_cons_of_mem _ mem))
      (fun g mem => each g (List.mem_cons_of_mem _ mem))
    rw [List.map_cons]
    cases looked : counterpart (fields'.map entry) (fieldJson f) with
    | error e =>
      rw [checkFields_cons_error looked, checkFields_cons_error looked]
      exact framed_pure _
    | ok found =>
      obtain rfl := counterpart_eq_ok (keys f List.mem_cons_self) looked
      cases named : counterpart? fields' f.1 with
      | some g =>
        rw [named] at looked
        rw [checkFields_cons_found looked, checkFields_cons_found looked]
        refine (each f List.mem_cons_self g (counterpart?_mem named) _).bind fun first => ?_
        exact others.bind fun result => framed_pure (.ok _)
      | none =>
        rw [named] at looked
        rw [checkFields_cons_missing looked, checkFields_cons_missing looked]
        refine others.bind fun result => ?_
        split
        · exact framed_pure (.ok _)
        · exact framed_pure (.ok _)

/-- Whether a pair has been met does not depend on pairs of other names. -/
theorem framed_checkRecord {isError isError' : Bool} {n m : String} {aliases aliases' : List Json}
    (foreign : (n, m) ∉ extra) (keys : ∀ f ∈ fields, f.1.name.isKey = true)
    (differ : Form.NamesDiffer fields')
    (each : ∀ f ∈ fields, ∀ g ∈ fields', ∀ place,
      Framed extra (step f.2.toJson g.2.toJson place) (step' f.2.toJson g.2.toJson place)) :
    Framed extra
      (checkRecord step (Form.record isError n aliases fields).toJson
        (Form.record isError' m aliases' fields').toJson path)
      (checkRecord step' (Form.record isError n aliases fields).toJson
        (Form.record isError' m aliases' fields').toJson path) := by
  intro met
  by_cases there : (n, m) ∈ met
  · rw [checkRecord_met there, checkRecord_met (List.mem_append_left _ there)]
    rfl
  · have new : (n, m) ∉ met ++ extra := fun mem => (List.mem_append.1 mem).elim there foreign
    rw [checkRecord_new there differ, checkRecord_new new differ]
    exact ((framed_checkFields keys each).bind fun _ => framed_pure (.ok _)) ((n, m) :: met)

end

/-! ## The whole check -/

section

variable {reader writer part : Form} {extra : Met}

/-- A check of a type that occurs in two writers does the same in both, whatever further pairs have
been met, if names in the type mean the same in both and the pairs are of names that the one does
not define. The induction is on the nesting. -/
theorem checkForms_framed (linkedR : Linked reader) (linkedP : Linked part)
    (same : ∀ w ∈ part.nodes, writer.resolve w = part.resolve w)
    (foreign : ∀ pair ∈ extra, pair.2 ∉ part.definedNames) (fuel : Nat) :
    ∀ r ∈ reader.nodes, ∀ w ∈ part.nodes, ∀ path,
      Framed extra (checkForms reader part fuel r w path)
        (checkForms reader writer fuel r w path) := by
  induction fuel with
  | zero =>
    intro r _ w _ path
    exact framed_pure (.error .exhausted)
  | succ fuel ih =>
    intro r hr w hw path
    have hr' : reader.resolve r ∈ reader.nodes := Form.resolve_mem_nodes hr
    have hw' : part.resolve w ∈ part.nodes := Form.resolve_mem_nodes hw
    have grounded := linkedR.grounded r hr
    have groundedW := linkedP.grounded w hw
    rw [checkForms_succ, checkForms_succ, same w hw]
    generalize reader.resolve r = a at hr' grounded
    generalize part.resolve w = b at hw' groundedW
    have tidyR := linkedR.tidy a hr'
    have tidyW := linkedP.tidy b hw'
    cases pairShape grounded groundedW with
    | writerUnion _ branches =>
      rw [checkTypes_writerUnion _ _ grounded, checkTypes_writerUnion _ _ grounded]
      exact framed_checkAll fun c mem => ih a hr' c (Form.branch_mem_nodes hw' mem) path
    | readerUnion branches _ single =>
      obtain ⟨text, described⟩ := describe_toJson groundedW
      rw [checkTypes_tried _ _ _ groundedW single described,
        checkTypes_tried _ _ _ groundedW single described]
      refine (framed_checkSome fun c mem =>
        ih c (Form.branch_mem_nodes hr' mem) b hw' path).bind fun found => ?_
      cases found with
      | true => exact framed_pure (.ok _)
      | false => exact framed_pure (.ok _)
    | arrays c d =>
      rw [checkTypes_arrays, checkTypes_arrays]
      exact ih c (Form.items_mem_nodes hr') d (Form.items_mem_nodes hw') _
    | maps c d =>
      rw [checkTypes_maps, checkTypes_maps]
      exact ih c (Form.values_mem_nodes hr') d (Form.values_mem_nodes hw') _
    | records isError isError' n m aliases aliases' fields fields' =>
      rw [checkTypes_records, checkTypes_records]
      have defined : m ∈ part.definedNames := List.mem_filterMap.2 ⟨_, hw', rfl⟩
      refine framed_checkNamed _ _ _ (framed_checkRecord (fun mem => foreign _ mem defined)
        tidyR.2.keys tidyW.2 fun f hf g hg => ?_)
      exact ih f.2 (Form.type_mem_nodes hr' hf) g.2 (Form.type_mem_nodes hw' hg)
    | enums =>
      rw [checkTypes_kinds _ _ (kindOf_toJson grounded) (kindOf_toJson groundedW),
        checkTypes_kinds _ _ (kindOf_toJson grounded) (kindOf_toJson groundedW)]
      exact framed_checkNamed _ _ _ (framed_pure _)
    | fixeds =>
      rw [checkTypes_kinds _ _ (kindOf_toJson grounded) (kindOf_toJson groundedW),
        checkTypes_kinds _ _ (kindOf_toJson grounded) (kindOf_toJson groundedW)]
      exact framed_checkNamed _ _ _ (framed_pure _)
    | primitives _ _ p known primitiveR primitiveW =>
      rw [checkTypes_primitives _ _ known primitiveR primitiveW,
        checkTypes_primitives _ _ known primitiveR primitiveW]
      exact framed_pure _
    | apart _ _ plainR plainW differ =>
      rw [← kindWord_union grounded] at plainR
      rw [← kindWord_union groundedW] at plainW
      rw [checkTypes_differ _ _ (kindOf_toJson grounded) (kindOf_toJson groundedW) plainR plainW
          differ,
        checkTypes_differ _ _ (kindOf_toJson grounded) (kindOf_toJson groundedW) plainR plainW
          differ]
      exact framed_pure _

end

end AvroRegistry.Compatibility
