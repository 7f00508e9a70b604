import AvroRegistry.Proofs.Schema.Agreement
import AvroRegistry.Proofs.Schema.Traced
import Mathlib.Data.List.Nodup

/-!
# Canonical forms are closed

A schema is scoped if every reference in it is to a name defined further to the left. The first
section shows that normalizing gives scoped forms without defects, and that what it has defined is
what the form defines. The second follows the walk over the top of a schema, where every branch of
a union starts with nothing declared, and shows that within each part of a form a name is defined
once.
-/

namespace AvroRegistry.Schema

/-! ## References -/

/-- Every reference in a list of types is to a name of the given ones or to a name that a type
before it defines. -/
def Scoped (defined : List String) : List Form → Prop
  | [] => True
  | node :: rest =>
    (∀ n, node = .name n → isPrimitive n = true ∨ n ∈ defined) ∧
      Scoped (node.definedName?.toList ++ defined) rest

/-- The names after those that a list of types defines, the last one first. -/
def namesAfter (defined : List String) (nodes : List Form) : List String :=
  (nodes.filterMap Form.definedName?).reverse ++ defined

theorem namesAfter_cons (defined : List String) (node : Form) (rest : List Form) :
    namesAfter defined (node :: rest) = namesAfter (node.definedName?.toList ++ defined) rest := by
  unfold namesAfter
  cases h : node.definedName? with
  | none => simp [h]
  | some n => simp [h]

theorem namesAfter_append (defined : List String) (xs ys : List Form) :
    namesAfter defined (xs ++ ys) = namesAfter (namesAfter defined xs) ys := by
  simp [namesAfter]

theorem scoped_append {defined : List String} {xs ys : List Form} :
    Scoped defined (xs ++ ys) ↔ Scoped defined xs ∧ Scoped (namesAfter defined xs) ys := by
  induction xs generalizing defined with
  | nil => simp [Scoped, namesAfter]
  | cons node rest ih =>
    rw [List.cons_append, Scoped, Scoped, ih, namesAfter_cons, and_assoc]

/-- In a scoped list a reference comes after a definition of its name. -/
theorem Scoped.defined_before {defined : List String} {nodes before after : List Form} {n : String}
    (inScope : Scoped defined nodes) (split : nodes = before ++ .name n :: after)
    (named : isPrimitive n = false) :
    n ∈ defined ∨ ∃ d ∈ before, d.definedName? = some n := by
  rw [split, scoped_append] at inScope
  rcases inScope.2.1 n rfl with primitive | found
  · rw [named] at primitive
    cases primitive
  · unfold namesAfter at found
    rcases List.mem_append.1 found with inside | outside
    · exact .inr (List.mem_filterMap.1 (List.mem_reverse.1 inside))
    · exact .inl outside

/-! ## What normalizing gives -/

/-- A form is scoped in the names defined before it, has no defects, and leaves the names that it
defines. -/
structure Built (before : List String) (form : Form) (after : List String) : Prop where
  leaves : after = namesAfter before form.nodes
  inScope : Scoped before form.nodes
  tidy : ∀ node ∈ form.nodes, node.Tidy

/-- Types that are built one after the other are scoped together. -/
theorem built_list {before after : List String} {forms : List Form}
    (chain : Chain Built before forms after) :
    after = namesAfter before (forms.flatMap Form.nodes) ∧
      Scoped before (forms.flatMap Form.nodes) ∧
      ∀ node ∈ forms.flatMap Form.nodes, node.Tidy := by
  induction chain with
  | nil => exact ⟨rfl, trivial, by simp⟩
  | cons first _ ih =>
    obtain ⟨leaves, inScope, tidy⟩ := ih
    rw [List.flatMap_cons, namesAfter_append, scoped_append, ← first.leaves]
    refine ⟨leaves, ⟨first.inScope, inScope⟩, ?_⟩
    intro node mem
    rcases List.mem_append.1 mem with here | there
    · exact first.tidy node here
    · exact tidy node there

/-- A type whose parts are built is built, if it has no defect of its own. -/
theorem built_of_parts {before after : List String} {form : Form} {parts : List Form}
    (nodes : form.nodes = form :: parts) (tidy : form.Tidy) (unnamed : ∀ n, form ≠ .name n)
    (inside : after = namesAfter (form.definedName?.toList ++ before) parts ∧
      Scoped (form.definedName?.toList ++ before) parts ∧ ∀ node ∈ parts, node.Tidy) :
    Built before form after := by
  obtain ⟨leaves, inScope, tidyParts⟩ := inside
  refine ⟨?_, ?_, ?_⟩
  · rw [nodes, namesAfter_cons]
    exact leaves
  · rw [nodes]
    exact ⟨fun n h => absurd h (unnamed n), inScope⟩
  · rw [nodes]
    intro node mem
    rcases List.mem_cons.1 mem with rfl | part
    · exact tidy
    · exact tidyParts node part

/-- A reference is built where its name is known. -/
theorem built_name {n : String} {defined : List String}
    (known : isPrimitive n = true ∨ n ∈ defined) : Built defined (.name n) defined := by
  refine ⟨rfl, ⟨fun m h => ?_, trivial⟩, ?_⟩
  · cases h
    exact known
  · intro node mem
    rw [List.mem_singleton.1 mem]
    trivial

/-- Normalizing gives built forms. -/
theorem normalizeType_built (v : Json) {space : String} {form : Form}
    {before after : List String} (ok : normalizeType space v before = .ok (form, after)) :
    Built before form after := by
  refine normalizeType_traced (motive := fun _ _ before form after => Built before form after)
    ?word ?union ?container ?record ?enumeration ?fixed ?primitive ?reference v ok
  case word =>
    intro space name D form D' ok
    obtain ⟨n, rfl, known, rfl⟩ := resolve_eq_ok ok
    exact built_name known
  case reference =>
    intro space members name D form D' _ _ _ ok
    obtain ⟨n, rfl, known, rfl⟩ := resolve_eq_ok ok
    exact built_name known
  case primitive =>
    intro space members name D _ primitive
    unfold primitiveForm
    split
    · exact built_name (.inl primitive)
    · exact built_of_parts rfl primitive (fun _ => nofun) ⟨rfl, trivial, by simp⟩
  case union =>
    intro space branches D forms D' tidy along
    exact built_of_parts (Form.nodes_union forms) tidy (fun _ => nofun) (built_list along.chain)
  case container =>
    intro space c members v D part D' _ _ built
    refine built_of_parts (nodes_container c part) (tidy_container c part) ?_ ?_
    · cases c
      all_goals exact fun _ => nofun
    · rw [definedName?_container]
      exact ⟨built.leaves, built.inScope, built.tidy⟩
  case record =>
    intro space isError members full aliases items D fields D' _ _ _ tidy along
    have inside := built_list (chain_of_made along)
    rw [List.flatMap_map] at inside
    exact built_of_parts (Form.nodes_record isError full aliases fields) tidy (fun _ => nofun)
      inside
  case enumeration =>
    intro space members full aliases symbols items D _ _ _ _ tidy
    exact built_of_parts rfl tidy (fun _ => nofun) ⟨rfl, trivial, by simp⟩
  case fixed =>
    intro space members full aliases size D _ _ _
    exact built_of_parts rfl (fixedAttributes_keys members) (fun _ => nofun)
      ⟨rfl, trivial, by simp⟩

/-! ## The top of a schema -/

/-- A form that is no union is its only part. -/
theorem Form.parts_eq_self {form : Form} (single : ∀ branches, form ≠ .union branches) :
    form.parts = [form] := by
  cases form with
  | union branches => exact absurd rfl (single branches)
  | _ => rfl

/-- Only an array is normalized to a union. -/
theorem normalizeType_single {v : Json} (plain : ∀ items, v ≠ .arr items) {space : String}
    {form : Form} {before after : List String}
    (ok : normalizeType space v before = .ok (form, after)) (branches : List Form) :
    form ≠ .union branches := by
  cases v with
  | arr items => exact absurd rfl (plain items)
  | obj members =>
    have part : ∀ c : Container, Json.lookup "type" members = some (.str c.word) →
        form ≠ .union branches := by
      intro c typed
      obtain ⟨_, _, -, -, rfl⟩ := normalizeContainer_eq_ok typed ok
      cases c
      all_goals nofun
    cases shape members with
    | untyped h =>
      rw [normalizeType_untyped space h] at ok
      cases ok
    | record isError h =>
      obtain ⟨_, _, _, _, _, _, -, -, -, rfl⟩ := normalizeRecord_eq_ok h ok
      nofun
    | enumeration h =>
      rw [normalizeType_enumeration space h] at ok
      obtain ⟨_, _, _, _, -, rfl, -⟩ := normalizeEnum_eq_ok ok
      nofun
    | fixed h =>
      rw [normalizeType_fixed space h] at ok
      obtain ⟨_, _, _, -, rfl, -⟩ := normalizeFixed_eq_ok ok
      nofun
    | array h => exact part .array h
    | map h => exact part .map h
    | other type h plain =>
      rw [normalizeType_other space h plain] at ok
      split at ok
      · cases ok
      · rcases normalizeOther_eq_ok ok with ⟨p, -, -, rfl, -⟩ | ⟨n, rfl, -, -⟩
        · unfold primitiveForm
          split
          all_goals nofun
        · nofun
  | _ =>
    rw [normalizeType] at ok
    · obtain ⟨n, rfl, -, -⟩ := normalizeWord_eq_ok ok
      nofun
    all_goals
      intros
      rename_i h
      cases h

/-- Within each part a full name is defined at most once. -/
def Form.DefinesOnce (form : Form) : Prop := ∀ part ∈ form.parts, part.definedNames.Nodup

/-- A value does not have the mark of a processed one, as an object or as a branch of a union. -/
inductive Unmarked : Json → Prop where
  | union {branches : List Json} (each : ∀ v ∈ branches, Unmarked v) : Unmarked (.arr branches)
  | object {members : List (String × Json)} (h : Json.lookup processedMark members = none) :
      Unmarked (.obj members)
  | word {v : Json} (array : ∀ items, v ≠ .arr items) (object : ∀ members, v ≠ .obj members) :
      Unmarked v

/-- A definition on its own is accepted with nothing declared, so whatever it defines it defines
once. -/
theorem definition_agrees {v : Json} (plain : ∀ items, v ≠ .arr items) {names names' : Names}
    (accepted : acceptDefinition v names = .ok ((), names')) :
    Follows (fun _ form _ => form.DefinesOnce) names names' (normalizeType "" v names.known) ∧
      Clear "" names.known v := by
  unfold acceptDefinition at accepted
  rw [Run.bind_of_ok (Run.modify_apply _ names)] at accepted
  obtain ⟨follows, clear⟩ := agrees v .outermost "" none _ names' (.text "") accepted
  refine ⟨?_, clear⟩
  intro form defined ok
  obtain ⟨same, grows⟩ := follows form defined ok
  refine ⟨same, ?_⟩
  intro part mem
  rw [Form.parts_eq_self (normalizeType_single plain ok), List.mem_singleton] at mem
  subst mem
  obtain ⟨new, declared, known⟩ := grows.fresh
  -- The new names are those the form defines, because both are put before the same known ones.
  have defines : part.definedNames.reverse = new := by
    have built := (normalizeType_built v ok).leaves
    rw [same, known] at built
    exact (List.append_cancel_right built).symm
  have once := grows.once List.nodup_nil
  rw [declared, ← defines, List.append_nil, List.nodup_reverse] at once
  exact once

/-- Accepting and normalizing agree on an unmarked value at the top, and the names in each part of
its form are defined once. -/
theorem top_agrees (v : Json) : ∀ {names names' : Names}, Unmarked v →
    acceptTop v names = .ok ((), names') →
      Follows (fun _ form _ => form.DefinesOnce) names names' (normalizeType "" v names.known) ∧
        Clear "" names.known v := by
  induction v using Json.induct with
  | step v ih =>
    intro names names' unmarked accepted
    cases unmarked with
    | @union branches each =>
      rw [acceptTop] at accepted
      obtain ⟨follows, clear⟩ := branches_agree acceptTop (by rw [acceptEach])
        (fun b rest => by rw [acceptEach])
        (fun b mem names names' => ih b (Json.sizeOf_item mem) (each b mem)) accepted
      refine ⟨?_, clear_union clear⟩
      intro form defined ok
      obtain ⟨-, forms, rfl, read⟩ := normalizeUnion_eq_ok ok
      obtain ⟨same, chain⟩ := follows forms defined read
      refine ⟨same, ?_⟩
      intro part mem
      rw [Form.parts, Form.partsOfBranches_eq_flatMap] at mem
      obtain ⟨form, branch, mem⟩ := List.mem_flatMap.1 mem
      exact chain.forall form branch part mem
    | @object members h =>
      rw [acceptTop, h] at accepted
      have plain : ∀ items, Json.obj members ≠ .arr items := fun _ h => nomatch h
      exact definition_agrees plain accepted
    | word array object =>
      rw [acceptTop] at accepted
      · exact definition_agrees array accepted
      · exact array
      · exact object

end AvroRegistry.Schema
