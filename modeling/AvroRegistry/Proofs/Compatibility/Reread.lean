import AvroRegistry.Proofs.Compatibility.Passes
import AvroRegistry.Proofs.Compatibility.Rearranged

/-!
# The check on schemas that were read back

A schema in canonical form is checked as it was made, or as it was read back from its text, with the
members of every object in the order of the text. Both come to the same: checks of the same forms
break down alike, meet the same pairs, and find violations of the same kinds at the same places
(`alike_check`). The violations themselves are equal if no value that is shown in a message has its
members in another order than the text (`Legible`).
-/

namespace AvroRegistry.Compatibility

open Schema (Form FieldHead)
open Json (arranged Everywhere Plain)

/-! ## Steps that come to the same -/

/-- Two steps come to the same: they break down alike, or meet the same pairs and give related
results. -/
def Alike {α β : Type} (related : α → β → Prop) (x : Checking α) (y : Checking β) : Prop :=
  ∀ met, (∃ b, x met = .error b ∧ y met = .error b) ∨
    ∃ a b met', x met = .ok (a, met') ∧ y met = .ok (b, met') ∧ related a b

section

variable {α β γ δ : Type} {related : α → β → Prop} {related' : γ → δ → Prop}

theorem alike_pure {a : α} {b : β} (h : related a b) : Alike related (pure a) (pure b) :=
  fun met => .inr ⟨a, b, met, rfl, rfl, h⟩

theorem alike_refl (x : Checking α) : Alike Eq x x := by
  intro met
  cases gives : x met with
  | error b => exact .inl ⟨b, rfl, rfl⟩
  | ok r => exact .inr ⟨r.1, r.1, r.2, rfl, rfl, rfl⟩

theorem Alike.bind {x : Checking α} {y : Checking β} {f : α → Checking γ} {g : β → Checking δ}
    (first : Alike related x y) (second : ∀ a b, related a b → Alike related' (f a) (g b)) :
    Alike related' (x >>= f) (y >>= g) := by
  intro met
  rcases first met with ⟨b, left, right⟩ | ⟨a, b, met', left, right, h⟩
  · exact .inl ⟨b, Run.bind_of_error left f, Run.bind_of_error right g⟩
  · rw [Run.bind_of_ok left, Run.bind_of_ok right]
    exact second a b h met'

/-- Two steps that begin with one and the same step. -/
theorem Alike.after (x : Checking α) {f : α → Checking γ} {g : α → Checking δ}
    (second : ∀ a, Alike related' (f a) (g a)) : Alike related' (x >>= f) (x >>= g) :=
  (alike_refl x).bind fun a _ same => same ▸ second a

theorem alike_ite {c : Prop} [Decidable c] {x x' : Checking α} {y y' : Checking β}
    (yes : Alike related x y) (no : Alike related x' y') :
    Alike related (if c then x else x') (if c then y else y') := by
  split
  · exact yes
  · exact no

end

/-! ## Violations -/

/-- Two violations have causes of one kind and one path, and are one violation if what they show is
shown alike. -/
structure Resembles (shown : Prop) (v v' : Violation) : Prop where
  kind : v.cause.kind = v'.cause.kind
  path : v.path = v'.path
  exact : shown → v = v'

theorem Resembles.refl (shown : Prop) (v : Violation) : Resembles shown v v :=
  ⟨rfl, rfl, fun _ => rfl⟩

/-- Violations in the same order that resemble each other. -/
abbrev AllResemble (shown : Prop) : List Violation → List Violation → Prop :=
  List.Forall₂ (Resembles shown)

variable {shown : Prop}

theorem allResemble_refl (shown : Prop) (vs : List Violation) : AllResemble shown vs vs :=
  List.forall₂_same.2 fun v _ => Resembles.refl shown v

theorem AllResemble.nil_iff {vs vs' : List Violation} (h : AllResemble shown vs vs') :
    vs = [] ↔ vs' = [] := by
  cases h <;> simp

theorem AllResemble.isEmpty {vs vs' : List Violation} (h : AllResemble shown vs vs') :
    vs.isEmpty = vs'.isEmpty := by
  cases h <;> rfl

theorem AllResemble.append {as as' bs bs' : List Violation} (h : AllResemble shown as as')
    (h' : AllResemble shown bs bs') : AllResemble shown (as ++ bs) (as' ++ bs') :=
  List.rel_append h h'

theorem alike_one {v v' : Violation} (h : Resembles shown v v') :
    Alike (AllResemble shown) (pure [v]) (pure [v']) := alike_pure (.cons h .nil)

theorem alike_same (x : Checking (List Violation)) : Alike (AllResemble shown) x x := by
  intro met
  cases gives : x met with
  | error b => exact .inl ⟨b, rfl, rfl⟩
  | ok r => exact .inr ⟨r.1, r.1, r.2, rfl, rfl, allResemble_refl shown r.1⟩

/-! ## Branches -/

section

variable {α : Type} {branches : List α} {value value' : α → Json}
  {step step' : Json → Checking (List Violation)}

theorem alike_checkAll
    (each : ∀ b ∈ branches, Alike (AllResemble shown) (step' (value' b)) (step (value b))) :
    Alike (AllResemble shown) (checkAll step' (branches.map value'))
      (checkAll step (branches.map value)) := by
  induction branches with
  | nil => exact alike_pure .nil
  | cons b rest ih =>
    obtain ⟨here, later⟩ := List.forall_mem_cons.1 each
    refine here.bind fun first first' same => ?_
    exact (ih later).bind fun others others' more => alike_pure (same.append more)

theorem alike_checkSome
    (each : ∀ b ∈ branches, Alike (AllResemble shown) (step' (value' b)) (step (value b))) :
    Alike Eq (checkSome step' (branches.map value')) (checkSome step (branches.map value)) := by
  induction branches with
  | nil => exact alike_refl _
  | cons b rest ih =>
    obtain ⟨here, later⟩ := List.forall_mem_cons.1 each
    refine Alike.after get fun before => here.bind fun first first' same => ?_
    rw [same.isEmpty]
    split
    · exact alike_refl _
    · exact Alike.after (set before) fun _ => ih later

end

/-! ## Kinds and names of arranged values -/

section

variable (l l' : Json.Layout)

theorem kindOf_arranged {v : Json} (plain : v.Everywhere Plain) :
    kindOf (arranged l v) = (kindOf v).map (arranged l) := by
  cases v with
  | obj members =>
    rw [Json.arranged_obj, kindOf, Json.lookup_arranged l plain.self, kindOf]
    cases Json.lookup "type" members with
    | none => rfl
    | some kind =>
      have same : (arranged l kind).isStr "error" = kind.isStr "error" := by cases kind <;> rfl
      rw [Option.map_some]
      dsimp only
      rw [same]
      split <;> rfl
  | arr items =>
    rw [Json.arranged_arr]
    rfl
  | _ => rfl

theorem kindOf_form {form : Form} (grounded : Grounded form)
    (plain : form.toJson.Everywhere Plain) :
    kindOf (arranged l form.toJson) = .ok (.str (kindWord form)) := by
  rw [kindOf_arranged l plain, kindOf_toJson grounded]
  rfl

/-- The values that messages show of a type and that may be other than texts: the size of a fixed
type, and what a primitive type with attributes has under the key of a name. -/
def shownValues : Form → List Json
  | .annotated _ attributes => (Json.lookup "name" attributes).toList
  | .fixed _ _ size _ => [size]
  | _ => []

/-- What messages show of a type has its members in the order of a text. -/
def Legible (node : Form) : Prop := ∀ v ∈ shownValues node, arranged Json.compact v = v

theorem arranged_name {form : Form} (legible : Legible form) {name : Json}
    (named : form.toJson.get? "name" = some name) : arranged l name = name := by
  cases form with
  | annotated p attributes =>
    have listed : Json.lookup "name" attributes = some name := named
    refine Json.arranged_of_compact l (legible name ?_)
    rw [shownValues, listed]
    exact List.mem_singleton_self name
  | record isError full aliases fields =>
    cases named
    rfl
  | enumeration full aliases symbols default =>
    cases named
    rfl
  | fixed full aliases size attributes =>
    cases named
    rfl
  | union branches => cases named
  | array items => cases named
  | map values => cases named
  | name n => cases named

theorem describe_arranged {form : Form} (grounded : Grounded form)
    (plain : form.toJson.Everywhere Plain) :
    ∃ text text', describe (arranged l form.toJson) = .ok text ∧
      describe form.toJson = .ok text' ∧ (Legible form → text = text') := by
  unfold describe
  rw [kindOf_form l grounded plain, kindOf_toJson grounded, Json.get?_arranged l plain]
  cases named : form.toJson.get? "name" with
  | none => exact ⟨_, _, rfl, rfl, fun _ => rfl⟩
  | some name =>
    refine ⟨_, _, rfl, rfl, fun legible => ?_⟩
    rw [arranged_name l legible named]

theorem unqualifiedNames_arranged (names : List Json) :
    unqualifiedNames (names.map (arranged l)) = unqualifiedNames names := by
  induction names with
  | nil => rfl
  | cons name rest ih =>
    have same : unqualifiedName (arranged l name) = unqualifiedName name := by cases name <;> rfl
    rw [List.map_cons, unqualifiedNames, unqualifiedNames, same, ih]

theorem nameVerdict_arranged (reader writer : String) (aliases : List Json) :
    nameVerdict reader (aliases.map (arranged l)) writer = nameVerdict reader aliases writer := by
  unfold nameVerdict
  rw [aliasNames_arr, aliasNames_arr, Json.isIn_arranged, unqualifiedNames_arranged]

theorem getD_arranged (aliases : Option Json) :
    (aliases.map (arranged l)).getD (.arr []) = arranged l (aliases.getD (.arr [])) := by
  cases aliases with
  | none => exact (Json.arranged_arr l []).symm
  | some v => rfl

theorem get?_name {form : Form} {n : String} (tidy : form.Tidy)
    (defines : form.definedName? = some n) : form.toJson.get? "name" = some (.str n) := by
  obtain ⟨members, value, named, -⟩ := named_members tidy defines
  rw [value]
  exact named

end

/-! ## Named types -/

section

variable (l l' : Json.Layout) {r w : Form} {n m : String} (path : String)
  (tidyR : r.Tidy) (tidyW : w.Tidy) (plainR : r.toJson.Everywhere Plain)
  (plainW : w.toJson.Everywhere Plain)

include tidyR tidyW plainR plainW

theorem namesMatch_arranged (reader : r.definedName? = some n) (writer : w.definedName? = some m) :
    namesMatch (arranged l r.toJson) (arranged l' w.toJson) = namesMatch r.toJson w.toJson := by
  obtain ⟨members, value, named, listed⟩ := named_members tidyR reader
  obtain ⟨members', value', named', -⟩ := named_members tidyW writer
  rw [value] at plainR ⊢
  rw [value'] at plainW ⊢
  have looked := Json.lookup_arranged l plainR.self
  have looked' := Json.lookup_arranged l' plainW.self
  rw [Json.arranged_obj, Json.arranged_obj, namesMatch_eq named named' listed,
    ← nameVerdict_arranged l]
  refine namesMatch_eq ?_ ?_ ?_
  · rw [looked, named]
    rfl
  · rw [looked', named']
    rfl
  · rw [looked, getD_arranged, listed, Json.arranged_arr]

/-- A check that begins with names begins alike. -/
theorem alike_named (reader : r.definedName? = some n) (writer : w.definedName? = some m)
    {rest rest' : Checking (List Violation)} (others : Alike (AllResemble shown) rest' rest) :
    Alike (AllResemble shown)
      (checkNamed (arranged l r.toJson) (arranged l' w.toJson) path rest')
      (checkNamed r.toJson w.toJson path rest) := by
  have same : nameViolation (arranged l r.toJson) (arranged l' w.toJson) path =
      nameViolation r.toJson w.toJson path := by
    unfold nameViolation
    rw [Json.get?_arranged l plainR, Json.get?_arranged l' plainW, get?_name tidyR reader,
      get?_name tidyW writer]
    rfl
  unfold checkNamed
  rw [namesMatch_arranged l l' tidyR tidyW plainR plainW reader writer, same]
  refine Alike.after _ fun b => ?_
  cases b with
  | true => exact others
  | false => exact alike_same _

end

section

variable (l l' : Json.Layout) (path : String)

theorem map_arranged_keys {values : List Json} (keys : values.all Json.isKey = true) :
    values.map (arranged l) = values := by
  have each := List.all_eq_true.1 keys
  rw [List.map_congr_left fun v mem => Json.arranged_of_isKey l (each v mem), List.map_id']

theorem symbolsOf_arranged {n : String} {aliases symbols : List Json} {default : Option Json}
    (keys : symbols.all Json.isKey = true)
    (plain : (Form.enumeration n aliases symbols default).toJson.Everywhere Plain) :
    symbolsOf (arranged l (Form.enumeration n aliases symbols default).toJson) = .ok symbols := by
  have listed : (Form.enumeration n aliases symbols default).toJson.item "symbols" =
      .ok (.arr symbols) := Json.item_obj _ _ _ (Schema.lookup_enumMembers _ _ _ _ _)
  unfold symbolsOf
  rw [Json.item_arranged l plain, listed]
  show (arranged l (.arr symbols)).elements = _
  rw [Json.arranged_arr, map_arranged_keys l keys]
  rfl

/-- Enums are checked by their names, their symbols and the presence of a default. -/
theorem checkEnum_arranged {n m : String} {aliases aliases' symbols symbols' : List Json}
    {default default' : Option Json} (keys : symbols.all Json.isKey = true)
    (keys' : symbols'.all Json.isKey = true)
    (plainR : (Form.enumeration n aliases symbols default).toJson.Everywhere Plain)
    (plainW : (Form.enumeration m aliases' symbols' default').toJson.Everywhere Plain) :
    checkEnum (arranged l (Form.enumeration n aliases symbols default).toJson)
        (arranged l' (Form.enumeration m aliases' symbols' default').toJson) path =
      checkEnum (Form.enumeration n aliases symbols default).toJson
        (Form.enumeration m aliases' symbols' default').toJson path := by
  have unsorted : symbolsOf (Form.enumeration n aliases symbols default).toJson = .ok symbols := by
    rw [← symbolsOf_arranged Json.spaced keys plainR, Json.arranged_of_unsorted _ rfl]
  have unsorted' : symbolsOf (Form.enumeration m aliases' symbols' default').toJson =
      .ok symbols' := by
    rw [← symbolsOf_arranged Json.spaced keys' plainW, Json.arranged_of_unsorted _ rfl]
  have named : (Form.enumeration n aliases symbols default).toJson.get? "name" = some (.str n) :=
    Schema.lookup_enumMembers _ _ _ _ _
  unfold checkEnum
  rw [symbolsOf_arranged l keys plainR, symbolsOf_arranged l' keys' plainW, unsorted, unsorted',
    Json.get?_arranged l plainR, Json.get?_arranged l plainR, Option.isSome_map, named]
  rfl

theorem alike_checkFixed {n m : String} {aliases aliases' : List Json} {size size' : Json}
    {attributes attributes' : List (String × Json)}
    (tidyR : Form.Tidy (.fixed n aliases size attributes))
    (tidyW : Form.Tidy (.fixed m aliases' size' attributes'))
    (plainR : (Form.fixed n aliases size attributes).toJson.Everywhere Plain)
    (plainW : (Form.fixed m aliases' size' attributes').toJson.Everywhere Plain)
    (legible : shown → Legible (.fixed n aliases size attributes) ∧
      Legible (.fixed m aliases' size' attributes')) :
    Alike (AllResemble shown)
      (pureStep (checkFixed (arranged l (Form.fixed n aliases size attributes).toJson)
        (arranged l' (Form.fixed m aliases' size' attributes').toJson) path))
      (pureStep (checkFixed (Form.fixed n aliases size attributes).toJson
        (Form.fixed m aliases' size' attributes').toJson path)) := by
  have found : Json.lookup "size" (Schema.fixedMembers n aliases size attributes) = some size :=
    Schema.lookup_fixedMembers n aliases size tidyR (by decide)
  have found' : Json.lookup "size" (Schema.fixedMembers m aliases' size' attributes') =
      some size' := Schema.lookup_fixedMembers m aliases' size' tidyW (by decide)
  have sized : (Form.fixed n aliases size attributes).toJson.item "size" = .ok size :=
    Json.item_obj _ _ _ found
  have sized' : (Form.fixed m aliases' size' attributes').toJson.item "size" = .ok size' :=
    Json.item_obj _ _ _ found'
  have equal := Json.equal_arranged l l' (plainR.lookup found) (plainW.lookup found')
  unfold checkFixed
  rw [Json.item_arranged l plainR, Json.item_arranged l' plainW, sized, sized']
  show Alike _ (pureStep (if (arranged l size).equal (arranged l' size') then _ else _ :
      Except Breakdown (List Violation)))
    (pureStep (if size.equal size' then _ else _ : Except Breakdown (List Violation)))
  rw [equal]
  split
  · exact alike_same _
  · refine alike_one ⟨rfl, rfl, fun exact => ?_⟩
    obtain ⟨reader, writer⟩ := legible exact
    rw [Json.arranged_of_compact l (reader size (List.mem_singleton_self size)),
      Json.arranged_of_compact l' (writer size' (List.mem_singleton_self size'))]

theorem alike_checkPromotion {r w : Form} (reader : Grounded r) (writer : Grounded w)
    (plainR : r.toJson.Everywhere Plain) (plainW : w.toJson.Everywhere Plain)
    (legible : shown → Legible r ∧ Legible w) :
    Alike (AllResemble shown)
      (pureStep (checkPromotion (.str (kindWord r)) (.str (kindWord w)) (arranged l r.toJson)
        (arranged l' w.toJson) path))
      (pureStep
        (checkPromotion (.str (kindWord r)) (.str (kindWord w)) r.toJson w.toJson path)) := by
  obtain ⟨text, text', left, right, same⟩ := describe_arranged l reader plainR
  obtain ⟨textW, textW', leftW, rightW, sameW⟩ := describe_arranged l' writer plainW
  unfold checkPromotion
  rw [left, right, leftW, rightW]
  show Alike _ (pureStep (if isPromoted _ _ then _ else _ : Except Breakdown (List Violation)))
    (pureStep (if isPromoted _ _ then _ else _ : Except Breakdown (List Violation)))
  split
  · exact alike_same _
  · refine alike_one ⟨rfl, rfl, fun exact => ?_⟩
    obtain ⟨here, there⟩ := legible exact
    rw [same here, sameW there]

end

/-! ## Fields -/

section

variable (l l' : Json.Layout) {path : String}

/-- A table with its fields arranged. -/
def arrangedTable (table : FieldTable) : FieldTable :=
  table.map fun entry => (entry.1, arranged l entry.2)

theorem setField_arranged (name field : Json) (table : FieldTable) :
    setField name (arranged l field) (arrangedTable l table) =
      arrangedTable l (setField name field table) := by
  induction table with
  | nil => rfl
  | cons entry rest ih =>
    obtain ⟨n, f⟩ := entry
    show setField name (arranged l field) ((n, arranged l f) :: arrangedTable l rest) = _
    rw [setField, setField, ih]
    split <;> rfl

theorem fieldTable_arranged {fields : List Json} (plain : ∀ f ∈ fields, f.Everywhere Plain)
    (table : FieldTable) :
    fieldTable (arrangedTable l table) (fields.map (arranged l)) =
      (fieldTable table fields).map (arrangedTable l) := by
  induction fields generalizing table with
  | nil => rfl
  | cons field rest ih =>
    obtain ⟨here, later⟩ := List.forall_mem_cons.1 plain
    rw [List.map_cons, fieldTable, fieldTable, Json.item_arranged l here]
    cases field.item "name" with
    | error b => rfl
    | ok name =>
      show (if (arranged l name).isKey then _ else _ : Except Breakdown FieldTable) = _
      rw [Json.isKey_arranged]
      by_cases key : name.isKey = true
      · rw [if_pos key, Json.arranged_of_isKey l key, setField_arranged, ih later]
        simp only [if_pos key]
      · rw [if_neg key]
        simp only [if_neg key]
        rfl

theorem findField_arranged (name : Json) (table : FieldTable) :
    findField name (arrangedTable l table) = (findField name table).map (arranged l) := by
  unfold findField arrangedTable
  rw [List.find?_map, Option.map_map, Option.map_map]
  rfl

theorem findByAlias_arranged (table : FieldTable) (aliases : List Json) :
    findByAlias (arrangedTable l' table) (aliases.map (arranged l)) =
      (findByAlias table aliases).map (Option.map (arranged l')) := by
  induction aliases with
  | nil => rfl
  | cons name rest ih =>
    rw [List.map_cons, findByAlias, findByAlias, Json.isKey_arranged]
    by_cases key : name.isKey = true
    · rw [key, Json.arranged_of_isKey l key, findField_arranged, ih]
      cases findField name table <;> rfl
    · rw [Bool.not_eq_true] at key
      rw [key]
      rfl

/-- The counterpart of an arranged field in an arranged table is the arranged counterpart. -/
theorem counterpart_arranged {f : FieldHead × Form} (key : f.1.name.isKey = true)
    (plain : (fieldJson f).Everywhere Plain) (table : FieldTable) :
    counterpart (arrangedTable l' table) (arranged l (fieldJson f)) =
      (counterpart table (fieldJson f)).map (Option.map (arranged l')) := by
  have checked : f.1.name.requireKey = .ok () := by
    unfold Json.requireKey
    rw [if_pos key]
  unfold counterpart
  rw [Json.item_arranged l plain, item_name, Json.get?_arranged l plain, getD_arranged,
    get?_aliases, Json.arranged_arr]
  show (do (arranged l f.1.name).requireKey; _ : Except Breakdown (Option Json)) =
    Except.map _ (do f.1.name.requireKey; _)
  rw [Json.arranged_of_isKey l key, checked, findField_arranged]
  cases findField f.1.name table with
  | some found => rfl
  | none => exact findByAlias_arranged l l' table f.1.aliases

theorem removedFields_arranged {writer : List (FieldHead × Form)} (matched : List Json)
    (plain : ∀ g ∈ writer, (fieldJson g).Everywhere Plain) :
    removedFields path matched (arrangedTable l' (writer.map entry)) =
      removedFields path matched (writer.map entry) := by
  unfold removedFields arrangedTable
  rw [List.map_map, List.filter_map, List.filter_map, List.map_map, List.map_map]
  have kept : ∀ g ∈ writer, ((arranged l' (fieldJson g)).get? "default").isNone =
      ((fieldJson g).get? "default").isNone := by
    intro g mem
    rw [Json.get?_arranged l' (plain g mem), Option.isNone_map]
  refine congrArg _ (List.filter_congr fun g mem => ?_)
  show (!g.1.name.isIn matched && ((arranged l' (fieldJson g)).get? "default").isNone) = _
  rw [kept g mem]
  rfl

variable {step step' : Json → Json → String → Checking (List Violation)}
  {reader writer : List (FieldHead × Form)}

/-- Fields are checked alike if the pairs of their types are. -/
theorem alike_checkFields (keys : ∀ f ∈ reader, f.1.name.isKey = true)
    (keysW : ∀ g ∈ writer, g.1.name.isKey = true)
    (plain : ∀ f ∈ reader, (fieldJson f).Everywhere Plain)
    (plainW : ∀ g ∈ writer, (fieldJson g).Everywhere Plain)
    (each : ∀ f ∈ reader, ∀ g ∈ writer, ∀ place, Alike (AllResemble shown)
      (step' (arranged l f.2.toJson) (arranged l' g.2.toJson) place)
      (step f.2.toJson g.2.toJson place)) :
    Alike (fun a b => AllResemble shown a.1 b.1 ∧ a.2 = b.2)
      (checkFields step' path (arrangedTable l' (writer.map entry))
        ((reader.map fieldJson).map (arranged l)))
      (checkFields step path (writer.map entry) (reader.map fieldJson)) := by
  induction reader with
  | nil => exact alike_pure ⟨.nil, rfl⟩
  | cons f rest ih =>
    obtain ⟨key, keysRest⟩ := List.forall_mem_cons.1 keys
    obtain ⟨plainF, plainRest⟩ := List.forall_mem_cons.1 plain
    obtain ⟨here, later⟩ := List.forall_mem_cons.1 each
    have others := ih keysRest plainRest later
    have default : ((arranged l (fieldJson f)).get? "default").isSome =
        ((fieldJson f).get? "default").isSome := by
      rw [Json.get?_arranged l plainF, Option.isSome_map]
    have name : (arranged l (fieldJson f)).item "name" = .ok f.1.name := by
      rw [Json.item_arranged l plainF, item_name]
      exact congrArg _ (Json.arranged_of_isKey l key)
    have type : (arranged l (fieldJson f)).item "type" = .ok (arranged l f.2.toJson) := by
      rw [Json.item_arranged l plainF, item_type]
      rfl
    simp only [List.map_cons]
    rw [checkFields, checkFields, item_name, name, pureStep_bind, pureStep_bind,
      counterpart_arranged l l' key plainF]
    cases looked : counterpart (writer.map entry) (fieldJson f) with
    | error b => exact fun met => .inl ⟨b, rfl, rfl⟩
    | ok found =>
      obtain rfl := counterpart_eq_ok key looked
      show Alike _ (pureStep (.ok _) >>= _) _
      rw [pureStep_bind, pureStep_bind]
      cases named : counterpart? writer f.1 with
      | none =>
        dsimp only [Option.map_none]
        refine others.bind fun a b both => ?_
        obtain ⟨same, names⟩ := both
        obtain ⟨vs, taken⟩ := a
        obtain ⟨vs', taken'⟩ := b
        obtain rfl : taken = taken' := names
        dsimp only
        rw [default]
        split
        · exact alike_pure ⟨same, rfl⟩
        · exact alike_pure ⟨.cons (Resembles.refl _ _) same, rfl⟩
      | some g =>
        have mem := counterpart?_mem named
        have nameG : (arranged l' (fieldJson g)).item "name" = .ok g.1.name := by
          rw [Json.item_arranged l' (plainW g mem), item_name]
          exact congrArg _ (Json.arranged_of_isKey l' (keysW g mem))
        have typeG : (arranged l' (fieldJson g)).item "type" = .ok (arranged l' g.2.toJson) := by
          rw [Json.item_arranged l' (plainW g mem), item_type]
          rfl
        dsimp only [Option.map_some]
        rw [nameG, item_name, type, item_type, typeG, item_type]
        simp only [pureStep_bind]
        refine (here g mem _).bind fun first first' same => others.bind fun a b both => ?_
        obtain ⟨more, names⟩ := both
        exact alike_pure ⟨same.append more, by rw [names]⟩

end

/-! ## Records -/

section

variable (l l' : Json.Layout) {path : String} {isError isError' : Bool} {n m : String}
  {aliases aliases' : List Json} {fields fields' : List (FieldHead × Form)}
  {step step' : Json → Json → String → Checking (List Violation)}

theorem plain_fieldJson (plain : (Form.record isError n aliases fields).toJson.Everywhere Plain) :
    ∀ f ∈ fields, (fieldJson f).Everywhere Plain := by
  rw [Schema.toJson_record] at plain
  have listed := plain.lookup (Schema.lookup_recordMembers "fields" isError n aliases fields)
  exact fun f mem => ((Json.everywhere_arr _).1 listed).2 _ (List.mem_map_of_mem mem)

theorem recordName_arranged
    (plain : (Form.record isError n aliases fields).toJson.Everywhere Plain) :
    (((arranged l (Form.record isError n aliases fields).toJson).get? "name").bind
      Json.asStr?).getD "" = n := by
  have named : (Form.record isError n aliases fields).toJson.get? "name" = some (.str n) := by
    rw [Schema.toJson_record]
    exact Schema.lookup_recordMembers _ _ _ _ _
  rw [Json.get?_arranged l plain, named]
  rfl

theorem recordFields_arranged
    (plain : (Form.record isError n aliases fields).toJson.Everywhere Plain) :
    ((arranged l (Form.record isError n aliases fields).toJson).item "fields").bind
      Json.elements = .ok ((fields.map fieldJson).map (arranged l)) := by
  have listed : (Form.record isError n aliases fields).toJson.item "fields" =
      .ok (.arr (fields.map fieldJson)) := by
    rw [Schema.toJson_record]
    exact Json.item_obj _ _ _ (Schema.lookup_recordMembers _ _ _ _ _)
  rw [Json.item_arranged l plain, listed]
  show (arranged l (.arr (fields.map fieldJson))).elements = _
  rw [Json.arranged_arr]
  rfl

/-- Two records are checked alike if the pairs of types of their fields are. -/
theorem alike_checkRecord (keys : ∀ f ∈ fields, f.1.name.isKey = true)
    (differ : Form.NamesDiffer fields')
    (plain : (Form.record isError n aliases fields).toJson.Everywhere Plain)
    (plain' : (Form.record isError' m aliases' fields').toJson.Everywhere Plain)
    (each : ∀ f ∈ fields, ∀ g ∈ fields', ∀ place, Alike (AllResemble shown)
      (step' (arranged l f.2.toJson) (arranged l' g.2.toJson) place)
      (step f.2.toJson g.2.toJson place)) :
    Alike (AllResemble shown)
      (checkRecord step' (arranged l (Form.record isError n aliases fields).toJson)
        (arranged l' (Form.record isError' m aliases' fields').toJson) path)
      (checkRecord step (Form.record isError n aliases fields).toJson
        (Form.record isError' m aliases' fields').toJson path) := by
  have table : fieldTable [] ((fields'.map fieldJson).map (arranged l')) =
      .ok (arrangedTable l' (fields'.map entry)) := by
    have inTable : ∀ v ∈ fields'.map fieldJson, v.Everywhere Plain := by
      intro v mem
      obtain ⟨g, field, rfl⟩ := List.mem_map.1 mem
      exact plain_fieldJson plain' g field
    have made := fieldTable_arranged l' inTable []
    rw [fieldTable_fields differ] at made
    exact made
  unfold checkRecord
  refine Alike.after get fun met => ?_
  rw [recordName_arranged l plain, recordName_arranged l' plain', recordName, recordName,
    recordFields_arranged l plain, recordFields_arranged l' plain', recordFields, recordFields]
  refine alike_ite (alike_same _) (Alike.after (set _) fun _ => ?_)
  simp only [pureStep_bind]
  rw [table, fieldTable_fields differ]
  simp only [pureStep_bind]
  refine (alike_checkFields l l' keys differ.keys (plain_fieldJson plain) (plain_fieldJson plain')
    each).bind fun a b both => alike_pure ?_
  obtain ⟨same, names⟩ := both
  rw [names, removedFields_arranged l' b.2 (plain_fieldJson plain')]
  exact same.append (allResemble_refl _ _)

end

/-! ## Types -/

section

variable (l l' : Json.Layout) {reader writer r w : Form}
  {step step' : Json → Json → String → Checking (List Violation)}

/-- A reader and a union that is written are checked alike if the reader and its branches are. -/
theorem alike_writerUnion {branches : List Form} (groundedR : Grounded r)
    (groundedW : Grounded (.union branches)) (plainR : r.toJson.Everywhere Plain)
    (plainW : (Form.union branches).toJson.Everywhere Plain) {path : String}
    (each : ∀ b ∈ branches, Alike (AllResemble shown)
      (step' (arranged l r.toJson) (arranged l' b.toJson) path) (step r.toJson b.toJson path)) :
    Alike (AllResemble shown)
      (checkTypes step' (arranged l r.toJson) (arranged l' (Form.union branches).toJson) path)
      (checkTypes step r.toJson (Form.union branches).toJson path) := by
  have left : checkTypes step' (arranged l r.toJson) (arranged l' (Form.union branches).toJson)
      path = checkAll (fun b => step' (arranged l r.toJson) b path)
        (branches.map fun b => arranged l' b.toJson) := by
    rw [checkTypes_kinds step' path (kindOf_form l groundedR plainR)
        (kindOf_form l' groundedW plainW), Schema.toJson_union, Json.arranged_arr, List.map_map]
    rfl
  rw [left, checkTypes_writerUnion step path groundedR]
  exact alike_checkAll each

/-- A union and another type that is written are checked alike if the branches and that type are.
The writer is described where no branch fits. -/
theorem alike_readerUnion {branches : List Form} (groundedR : Grounded (.union branches))
    (groundedW : Grounded w) (single : ¬ IsUnion w)
    (plainR : (Form.union branches).toJson.Everywhere Plain) (plainW : w.toJson.Everywhere Plain)
    (legible : shown → Legible w) {path : String}
    (each : ∀ b ∈ branches, Alike (AllResemble shown)
      (step' (arranged l b.toJson) (arranged l' w.toJson) path) (step b.toJson w.toJson path)) :
    Alike (AllResemble shown)
      (checkTypes step' (arranged l (Form.union branches).toJson) (arranged l' w.toJson) path)
      (checkTypes step (Form.union branches).toJson w.toJson path) := by
  have other : (Json.str (kindWord w)).isStr "union" = false := by
    rw [← kindWord_union groundedW] at single
    simpa [Json.isStr] using single
  obtain ⟨text, text', described, described', same⟩ := describe_arranged l' groundedW plainW
  have left : checkTypes step' (arranged l (Form.union branches).toJson) (arranged l' w.toJson)
      path = (do
        if ← checkSome (fun b => step' b (arranged l' w.toJson) path)
          (branches.map fun b => arranged l b.toJson) then return []
        return [⟨.missingUnionBranch text, path, none, none⟩]) := by
    rw [checkTypes_kinds step' path (kindOf_form l groundedR plainR)
        (kindOf_form l' groundedW plainW), Schema.toJson_union, Json.arranged_arr, List.map_map,
      described, other]
    rfl
  have right : checkTypes step (Form.union branches).toJson w.toJson path = (do
        if ← checkSome (fun b => step b w.toJson path) (branches.map Form.toJson) then return []
        return [⟨.missingUnionBranch text', path, none, none⟩]) := by
    rw [checkTypes_kinds step path (kindOf_toJson groundedR) (kindOf_toJson groundedW),
      Schema.toJson_union, described', other]
    rfl
  have some : Alike Eq
      (checkSome (fun b => step' b (arranged l' w.toJson) path)
        (branches.map fun b => arranged l b.toJson))
      (checkSome (fun b => step b w.toJson path) (branches.map Form.toJson)) :=
    alike_checkSome each
  rw [left, right]
  refine some.bind fun a b found => ?_
  obtain rfl : a = b := found
  refine alike_ite (alike_same _) (alike_one ⟨rfl, rfl, fun exact => ?_⟩)
  rw [same (legible exact)]

/-- Two types of two schemas are checked alike if the pairs of their parts are. -/
theorem alike_checkTypes (hr : r ∈ reader.nodes) (hw : w ∈ writer.nodes) (groundedR : Grounded r)
    (groundedW : Grounded w) (tidyR : r.Tidy) (tidyW : w.Tidy)
    (plainR : r.toJson.Everywhere Plain) (plainW : w.toJson.Everywhere Plain)
    (legible : shown → Legible r ∧ Legible w)
    (each : ∀ r ∈ reader.nodes, ∀ w ∈ writer.nodes, ∀ path, Alike (AllResemble shown)
      (step' (arranged l r.toJson) (arranged l' w.toJson) path) (step r.toJson w.toJson path))
    (path : String) :
    Alike (AllResemble shown) (checkTypes step' (arranged l r.toJson) (arranged l' w.toJson) path)
      (checkTypes step r.toJson w.toJson path) := by
  have readerKind := kindOf_form l groundedR plainR
  have writerKind := kindOf_form l' groundedW plainW
  have kinds := checkTypes_kinds step' path readerKind writerKind
  cases pairShape groundedR groundedW with
  | writerUnion _ branches =>
    exact alike_writerUnion l l' groundedR groundedW plainR plainW
      fun b mem => each r hr b (Form.branch_mem_nodes hw mem) path
  | readerUnion branches _ single =>
    exact alike_readerUnion l l' groundedR groundedW single plainR plainW
      (fun exact => (legible exact).2) fun b mem => each b (Form.branch_mem_nodes hr mem) w hw path
  | arrays items items' =>
    have left : checkTypes step' (arranged l (Form.array items).toJson)
        (arranged l' (Form.array items').toJson) path =
          step' (arranged l items.toJson) (arranged l' items'.toJson) (path ++ "/items") := by
      rw [kinds, Json.item_arranged l plainR "items", Json.item_arranged l' plainW "items"]
      rfl
    rw [left, checkTypes_arrays]
    exact each items (Form.items_mem_nodes hr) items' (Form.items_mem_nodes hw) _
  | maps values values' =>
    have left : checkTypes step' (arranged l (Form.map values).toJson)
        (arranged l' (Form.map values').toJson) path =
          step' (arranged l values.toJson) (arranged l' values'.toJson) (path ++ "/values") := by
      rw [kinds, Json.item_arranged l plainR "values", Json.item_arranged l' plainW "values"]
      rfl
    rw [left, checkTypes_maps]
    exact each values (Form.values_mem_nodes hr) values' (Form.values_mem_nodes hw) _
  | records isError isError' n m aliases aliases' fields fields' =>
    rw [kinds, checkTypes_records]
    refine alike_named l l' path tidyR tidyW plainR plainW rfl rfl ?_
    exact alike_checkRecord l l' tidyR.2.keys tidyW.2 plainR plainW fun f mem g mem' =>
      each f.2 (Form.type_mem_nodes hr mem) g.2 (Form.type_mem_nodes hw mem')
  | enums n m aliases aliases' symbols symbols' default default' =>
    have right := checkTypes_kinds step path (kindOf_toJson groundedR) (kindOf_toJson groundedW)
    rw [kinds, right]
    refine alike_named l l' path tidyR tidyW plainR plainW rfl rfl ?_
    rw [checkEnum_arranged l l' path tidyR.1 tidyW.1 plainR plainW]
    exact alike_same _
  | fixeds n m aliases aliases' size size' attributes attributes' =>
    have right := checkTypes_kinds step path (kindOf_toJson groundedR) (kindOf_toJson groundedW)
    rw [kinds, right]
    exact alike_named l l' path tidyR tidyW plainR plainW rfl rfl
      (alike_checkFixed l l' path tidyR tidyW plainR plainW legible)
  | primitives _ _ p known rIs wIs =>
    rw [kindWord_of_primitive? rIs] at readerKind
    rw [kindWord_of_primitive? wIs] at writerKind
    rw [checkTypes_alike step' path known readerKind writerKind,
      checkTypes_primitives step path known rIs wIs]
    exact alike_same _
  | apart _ _ plain plain' differ =>
    rw [← kindWord_union groundedR] at plain
    rw [← kindWord_union groundedW] at plain'
    rw [checkTypes_differ step' path readerKind writerKind plain plain' differ,
      checkTypes_differ step path (kindOf_toJson groundedR) (kindOf_toJson groundedW) plain plain'
        differ]
    exact alike_checkPromotion l l' path groundedR groundedW plainR plainW legible

end

/-! ## Schemas -/

/-- A type in a plain schema is plain. -/
theorem plain_node {root node : Form} (plain : root.toJson.Everywhere Plain)
    (mem : node ∈ root.nodes) : node.toJson.Everywhere Plain := by
  induction root using Form.induct with
  | union branches ih =>
    rw [Form.nodes_union] at mem
    rcases List.mem_cons.1 mem with rfl | inside
    · exact plain
    · obtain ⟨b, branch, deeper⟩ := List.mem_flatMap.1 inside
      rw [Schema.toJson_union] at plain
      have part := ((Json.everywhere_arr _).1 plain).2 _ (List.mem_map_of_mem branch)
      exact ih b branch part deeper
  | array items ih =>
    rcases List.mem_cons.1 mem with rfl | inside
    · exact plain
    · rw [Form.toJson] at plain
      exact ih (plain.lookup (show Json.lookup "items" _ = some _ from rfl)) inside
  | map values ih =>
    rcases List.mem_cons.1 mem with rfl | inside
    · exact plain
    · rw [Form.toJson] at plain
      exact ih (plain.lookup (show Json.lookup "values" _ = some _ from rfl)) inside
  | record isError full aliases fields ih =>
    rw [Form.nodes_record] at mem
    rcases List.mem_cons.1 mem with rfl | inside
    · exact plain
    · obtain ⟨f, field, deeper⟩ := List.mem_flatMap.1 inside
      have item := plain_fieldJson plain f field
      exact ih f field (item.lookup (Schema.lookup_fieldMembers "type" f.1 f.2.toJson)) deeper
  | _ =>
    obtain rfl : node = _ := List.mem_singleton.1 mem
    exact plain

section

variable (l l' : Json.Layout) {reader writer : Form}

/-- The check of two forms comes to the same whatever the order of members. -/
theorem alike_check (linkedR : Linked reader) (linkedW : Linked writer)
    (plainR : reader.toJson.Everywhere Plain) (plainW : writer.toJson.Everywhere Plain)
    (legible : shown → (∀ r ∈ reader.nodes, Legible r) ∧ ∀ w ∈ writer.nodes, Legible w)
    (fuel : Nat) : ∀ r ∈ reader.nodes, ∀ w ∈ writer.nodes, ∀ path, Alike (AllResemble shown)
      (check (arrangedNames l (enter [] reader.nodes))
        (arrangedNames l' (enter [] writer.nodes)) fuel
        (arranged l r.toJson) (arranged l' w.toJson) path)
      (check (enter [] reader.nodes) (enter [] writer.nodes) fuel r.toJson w.toJson path) := by
  induction fuel with
  | zero => exact fun r _ w _ path met => .inl ⟨.exhausted, rfl, rfl⟩
  | succ fuel ih =>
    intro r hr w hw path
    have hr' := Form.resolve_mem_nodes hr
    have hw' := Form.resolve_mem_nodes hw
    rw [check, check, resolveIn_arranged, resolveIn_arranged, resolveIn_toJson, resolveIn_toJson]
    exact alike_checkTypes l l' hr' hw' (linkedR.grounded r hr) (linkedW.grounded w hw)
      (linkedR.tidy _ hr') (linkedW.tidy _ hw') (plain_node plainR hr') (plain_node plainW hw')
      (fun exact => ⟨(legible exact).1 _ hr', (legible exact).2 _ hw'⟩) ih path

/-- Whether the check of two schemas finds nothing does not depend on the order of members, and
neither do its breakdowns. -/
theorem checkReaderWriter_arranged (linkedR : Linked reader) (linkedW : Linked writer)
    (plainR : reader.toJson.Everywhere Plain) (plainW : writer.toJson.Everywhere Plain)
    (legible : shown → (∀ r ∈ reader.nodes, Legible r) ∧ ∀ w ∈ writer.nodes, Legible w) :
    (∃ b, checkReaderWriter (arranged l reader.toJson) (arranged l' writer.toJson) = .error b ∧
        checkReaderWriter reader.toJson writer.toJson = .error b) ∨
      ∃ vs vs', checkReaderWriter (arranged l reader.toJson) (arranged l' writer.toJson) = .ok vs ∧
        checkReaderWriter reader.toJson writer.toJson = .ok vs' ∧ AllResemble shown vs vs' := by
  have namesR : namesOf (arranged l reader.toJson) =
      .ok (arrangedNames l (enter [] reader.nodes)) := by
    rw [namesOf_arranged l plainR, namesOf_toJson linkedR.tidy]
    rfl
  have namesW : namesOf (arranged l' writer.toJson) =
      .ok (arrangedNames l' (enter [] writer.nodes)) := by
    rw [namesOf_arranged l' plainW, namesOf_toJson linkedW.tidy]
    rfl
  have fuel : budget (arrangedNames l (enter [] reader.nodes))
      (arrangedNames l' (enter [] writer.nodes)) (arranged l reader.toJson)
      (arranged l' writer.toJson) =
        budget (enter [] reader.nodes) (enter [] writer.nodes) reader.toJson writer.toJson := by
    unfold budget arrangedNames Json.mapMembers
    rw [weight_arranged, weight_arranged, List.length_map, List.length_map]
  have alike := alike_check l l' linkedR linkedW plainR plainW legible
    (budget (enter [] reader.nodes) (enter [] writer.nodes) reader.toJson writer.toJson)
    reader reader.self_mem_nodes writer writer.self_mem_nodes "" []
  unfold checkReaderWriter
  rw [namesR, namesW, namesOf_toJson linkedR.tidy, namesOf_toJson linkedW.tidy]
  dsimp only [bind, Except.bind]
  rw [fuel]
  dsimp only [StateT.run]
  rcases alike with ⟨b, left, right⟩ | ⟨vs, vs', met, left, right, same⟩
  · rw [left, right]
    exact .inl ⟨b, rfl, rfl⟩
  · rw [left, right]
    exact .inr ⟨vs, vs', rfl, rfl, same⟩

/-- A check finds nothing of schemas in one order of members if it does in another. -/
theorem finds_nothing_arranged (linkedR : Linked reader) (linkedW : Linked writer)
    (plainR : reader.toJson.Everywhere Plain) (plainW : writer.toJson.Everywhere Plain) :
    checkReaderWriter (arranged l reader.toJson) (arranged l' writer.toJson) = .ok [] ↔
      checkReaderWriter reader.toJson writer.toJson = .ok [] := by
  rcases checkReaderWriter_arranged l l' linkedR linkedW plainR plainW
    (fun h : False => h.elim) with ⟨b, left, right⟩ | ⟨vs, vs', left, right, same⟩
  · simp only [left, right, reduceCtorEq]
  · rw [left, right, Except.ok.injEq, Except.ok.injEq]
    exact same.nil_iff

end

end AvroRegistry.Compatibility
