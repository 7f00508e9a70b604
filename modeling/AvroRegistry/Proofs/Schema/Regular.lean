import AvroRegistry.Proofs.Json.Reading
import AvroRegistry.Proofs.Schema.Malformed
import AvroRegistry.Proofs.Schema.Respelled

/-!
# Schemas that are accepted or refused

Accepting a schema does not look at everything that normalizing and comparing it rely on: aliases
may be anything that can be listed, the names of fields any value, and a value that is marked as
processed is not looked at at all. A schema in which these are what they should be, texts and values
that may be keys, and whose numbers are not too large, is `Regular`. Bringing a submitted schema
that is regular into canonical form gives one, or a diagnosis (`canonicalize_decides`).
-/

namespace AvroRegistry.Schema

/-! ## Regular schemas -/

/-- Going through the value gives texts only, or it says nothing. -/
def ListsTexts (v : Json) : Prop :=
  v.truthy = false ∨ ∃ texts : List String, v.elements = .ok (texts.map .str)

/-- The aliases of a type or a field are texts. -/
def TextAliases (members : List (String × Json)) : Prop :=
  ∀ v, Json.lookup "aliases" members = some v → ListsTexts v

theorem textAliases_of_none {members : List (String × Json)}
    (none : Json.lookup "aliases" members = none) : TextAliases members := by
  intro v found
  cases none.symm.trans found

/-- The members of a type or a field that are what they should be, as far as accepting does not look
at them. -/
structure RegularMembers (members : List (String × Json)) : Prop extends Measured members where
  aliases : ∀ v, Json.lookup "aliases" members = some v → ListsTexts v
  name : ∀ v, Json.lookup "name" members = some v → v.isKey = true

section

variable {members : List (String × Json)} (given : TextAliases members)

include given

/-- Aliases of a type that are texts are texts in its canonical form. -/
theorem typeAliases_texts (space : String) :
    ∃ texts : List String, typeAliases space members = .ok (texts.map .str) := by
  unfold typeAliases
  cases found : Json.lookup "aliases" members with
  | none => exact ⟨[], rfl⟩
  | some v =>
    dsimp only
    rcases given v found with nothing | ⟨texts, listed⟩
    · exact ⟨[], by rw [nothing]; rfl⟩
    · rw [listed]
      dsimp only
      rw [qualifyAliases_texts]
      dsimp only
      rw [Json.sorted_texts]
      split
      · exact ⟨_, rfl⟩
      · exact ⟨[], rfl⟩

/-- So are those of a field. -/
theorem fieldAliases_texts :
    ∃ texts : List String, fieldAliases members = .ok (texts.map .str) := by
  unfold fieldAliases
  cases found : Json.lookup "aliases" members with
  | none => exact ⟨[], rfl⟩
  | some v =>
    dsimp only
    rcases given v found with nothing | ⟨texts, listed⟩
    · exact ⟨[], by rw [nothing]; rfl⟩
    · rw [listed]
      dsimp only
      rw [Json.sorted_texts]
      split
      · exact ⟨_, rfl⟩
      · exact ⟨[], rfl⟩

end

/-! ## What accepting has looked at -/

section

variable {outer : Space} {default : Option Json} {members : List (String × Json)}
  {names names' : Names}

theorem member_eq_ok {key : String} {v : Json}
    (ok : member key members names = .ok (v, names')) : Json.lookup key members = some v := by
  unfold member at ok
  cases found : Json.lookup key members with
  | none =>
    rw [found] at ok
    cases ok
  | some w =>
    rw [found] at ok
    cases ok
    rfl

theorem require_eq_ok {condition : Bool} {d : Diagnosis} {u : Unit}
    (ok : require condition d names = .ok (u, names')) : condition = true := by
  unfold require at ok
  split at ok
  · next holds => exact holds
  · cases ok

/-- Symbols are texts, so they may be keys. -/
theorem keys_of_symbols {items : List Json} (each : items.all isSymbol = true) :
    items.all Json.isKey = true := by
  refine List.all_eq_true.2 fun item mem => ?_
  have symbol := List.all_eq_true.1 each item mem
  cases item with
  | str => rfl
  | _ => cases symbol

/-- The symbols of an enum that is accepted are texts. -/
theorem checkSymbols_eq_ok {u : Unit} (ok : checkSymbols members names = .ok (u, names')) :
    ∃ symbols items, Json.lookup "symbols" members = some symbols ∧
      symbols.elements = .ok items ∧ items.all isSymbol = true := by
  unfold checkSymbols at ok
  obtain ⟨symbols, found, ok⟩ := bind_of_quiet (quiet_member _ _) ok
  cases listed : symbols.elements with
  | error b =>
    rw [listed] at ok
    cases ok
  | ok items =>
    rw [listed] at ok
    obtain ⟨_, each, -⟩ := bind_of_quiet (quiet_require _ _) ok
    exact ⟨symbols, items, member_eq_ok found, listed, require_eq_ok each⟩

theorem acceptEnum_symbols (typed : Json.lookup "type" members = some (.str "enum"))
    (ok : acceptType outer default (.obj members) names = .ok ((), names')) :
    ∃ symbols items, Json.lookup "symbols" members = some symbols ∧
      symbols.elements = .ok items ∧ items.all isSymbol = true := by
  rw [acceptType_enumeration outer default typed] at ok
  obtain ⟨_, -, ok⟩ := bind_of_quiet (quiet_checkDecimal _ _) ok
  obtain ⟨⟨full, inner⟩, between, -, ok⟩ := Run.bind_eq_ok.1 ok
  obtain ⟨_, _, -, ok⟩ := Run.bind_eq_ok.1 ok
  obtain ⟨_, symbols, -⟩ := bind_of_quiet (quiet_checkSymbols _) ok
  exact checkSymbols_eq_ok symbols

theorem acceptFixed_size (typed : Json.lookup "type" members = some (.str "fixed"))
    (ok : acceptType outer default (.obj members) names = .ok ((), names')) :
    ∃ size, Json.lookup "size" members = some size := by
  rw [acceptType_fixed outer default typed] at ok
  obtain ⟨_, -, ok⟩ := bind_of_quiet (quiet_checkDecimal _ _) ok
  obtain ⟨⟨full, inner⟩, between, -, ok⟩ := Run.bind_eq_ok.1 ok
  obtain ⟨_, _, -, ok⟩ := Run.bind_eq_ok.1 ok
  obtain ⟨_, -, ok⟩ := bind_of_quiet (quiet_requireDefault _ _ _) ok
  rw [Run.bind_of_ok (learn_apply full _)] at ok
  change ((fun _ => ()) <$> member "size" members) _ = _ at ok
  obtain ⟨size, sized, -⟩ := Run.map_eq_ok.1 ok
  exact ⟨size, member_eq_ok sized⟩

theorem acceptFields_cons_named {rest : List Json}
    (ok : acceptFields outer (.obj members :: rest) names = .ok ((), names')) :
    ∃ name, Json.lookup "name" members = some name := by
  rw [acceptFields] at ok
  obtain ⟨_, checked, -⟩ := bind_of_quiet (quiet_checkField _) ok
  unfold checkField at checked
  cases named : Json.lookup "name" members with
  | none =>
    rw [named] at checked
    cases checked
  | some name => exact ⟨name, rfl⟩

end

/-! ## Normalizing what was accepted -/

/-- A step does not break down. -/
abbrev Steady {α : Type} (x : Normalizing α) : Prop := BreaksOnly (fun _ => False) x

theorem steady_reject {α : Type} (d : Diagnosis) : Steady (reject d : Normalizing α) := nofun

theorem steady_resolve (name space : String) : Steady (resolve name space) := by
  intro defined b broke
  unfold resolve at broke
  by_cases primitive : isPrimitive name = true
  · rw [if_pos primitive] at broke
    cases broke
  · rw [if_neg primitive] at broke
    change (if defined.contains (qualify name space) then pure (.name (qualify name space))
      else if defined.contains name then pure (.name name)
      else reject (.unresolved name) : Normalizing Form) defined = _ at broke
    split at broke
    · cases broke
    · split at broke
      · cases broke
      · cases broke

section

variable {space : String} {members : List (String × Json)}

theorem steady_introduce (regular : RegularMembers members) (type : Json) :
    Steady (introduce space type members) := by
  by_cases unnamed : ∀ name, Json.lookup "name" members = some (.str name) → name = ""
  · rw [introduce_unnamed unnamed]
    exact steady_reject _
  · obtain ⟨name, absent⟩ := not_forall.1 unnamed
    obtain ⟨named, filled⟩ := Classical.not_imp.1 absent
    obtain ⟨texts, aliases⟩ := typeAliases_texts regular.aliases
      (spaceOf (qualify name (enclosing space members)))
    rw [introduce_named named filled, aliases]
    refine breaksOnly_bind (breaksOnly_pure _) fun _ => ?_
    exact breaksOnly_bind (breaksOnly_modify _) fun _ => breaksOnly_pure _

/-- An enum whose symbols are texts. -/
theorem steady_normalizeEnum (regular : RegularMembers members) (type : Json) {symbols : Json}
    {items : List Json} (found : Json.lookup "symbols" members = some symbols)
    (listed : symbols.elements = .ok items) (each : items.all isSymbol = true) :
    Steady (normalizeEnum space type members) := by
  have keys := keys_of_symbols each
  unfold normalizeEnum
  refine breaksOnly_bind (steady_introduce regular type) fun (full, aliases) => ?_
  dsimp only
  rw [found]
  dsimp only
  rw [listed]
  change Steady ((pure items : Normalizing (List Json)) >>= _)
  rw [pure_bind, keys]
  split
  · next odd => cases odd
  · split
    · exact breaksOnly_bind (steady_reject _) fun _ => breaksOnly_pure _
    · exact breaksOnly_pure _

/-- A fixed type with a size. -/
theorem steady_normalizeFixed (regular : RegularMembers members) (type : Json) {size : Json}
    (found : Json.lookup "size" members = some size) :
    Steady (normalizeFixed space type members) := by
  unfold normalizeFixed
  refine breaksOnly_bind (steady_introduce regular type) fun (full, aliases) => ?_
  dsimp only
  rw [found]
  exact breaksOnly_pure _

theorem steady_fieldName (regular : RegularMembers members) (full : String) (seen : List Json)
    {name : Json} (named : Json.lookup "name" members = some name) :
    Steady (fieldName full seen members) := by
  unfold fieldName
  rw [named]
  dsimp only
  rw [regular.name name named]
  split
  · next odd => cases odd
  · split
    · exact steady_reject _
    · exact breaksOnly_pure _

/-- The part of a container, if it can be normalized. -/
theorem steady_normalizeUnder {key : String} {v : Json}
    (found : Json.lookup key members = some v) (steady : Steady (normalizeType space v)) :
    Steady (normalizeUnder key space members) := by
  rw [normalizeUnder_eq, found]
  exact steady

theorem steady_normalizeBranches {branches : List Json}
    (each : ∀ v ∈ branches, Steady (normalizeType space v)) :
    Steady (normalizeBranches space branches) := by
  induction branches with
  | nil =>
    rw [normalizeBranches]
    exact breaksOnly_pure _
  | cons branch rest ih =>
    obtain ⟨first, others⟩ := List.forall_mem_cons.1 each
    rw [normalizeBranches]
    refine breaksOnly_bind first fun _ => ?_
    exact breaksOnly_bind (ih others) fun _ => breaksOnly_pure _

/-- A union whose branches can be normalized. -/
theorem steady_union {branches : List Json}
    (each : ∀ v ∈ branches, Steady (normalizeType space v)) :
    Steady (normalizeType space (.arr branches)) := by
  cases branches with
  | nil =>
    rw [normalizeType]
    exact steady_reject _
  | cons first rest =>
    rw [normalizeType]
    · exact breaksOnly_bind (steady_normalizeBranches each) fun _ => breaksOnly_pure _
    · exact List.cons_ne_nil first rest

end

/-- A type that was accepted is normalized without a breakdown. -/
def Carries (v : Json) : Prop :=
  ∀ outer default names names', acceptType outer default v names = .ok ((), names') →
    ∀ space, Steady (normalizeType space v)

section

variable {outer : Space} {default : Option Json} {members : List (String × Json)}
  {names names' : Names} {space : String}

theorem carries_branches {branches : List Json} (each : ∀ v ∈ branches, Carries v)
    (accepted : acceptBranches outer branches names = .ok ((), names')) :
    ∀ v ∈ branches, ∀ space, Steady (normalizeType space v) := by
  induction branches generalizing names with
  | nil => simp
  | cons branch rest ih =>
    obtain ⟨first, others⟩ := List.forall_mem_cons.1 each
    rw [acceptBranches] at accepted
    obtain ⟨_, between, acceptedFirst, acceptedRest⟩ := Run.bind_eq_ok.1 accepted
    exact List.forall_mem_cons.2 ⟨first outer none names between acceptedFirst,
      ih others acceptedRest⟩

theorem carries_fields {items : List Json} (full : String)
    (each : ∀ field, .obj field ∈ items → RegularMembers field ∧
      ∀ v, Json.lookup "type" field = some v → Carries v)
    (accepted : acceptFields outer items names = .ok ((), names')) (seen : List Json) :
    Steady (normalizeFields full space seen items) := by
  induction items generalizing names seen with
  | nil =>
    rw [normalizeFields]
    exact breaksOnly_pure _
  | cons item rest ih =>
    cases item with
    | obj field =>
      obtain ⟨regular, carries⟩ := each field List.mem_cons_self
      obtain ⟨name, named⟩ := acceptFields_cons_named accepted
      obtain ⟨v, default, between, typed, acceptedFirst, acceptedRest⟩ :=
        acceptFields_cons_eq_ok accepted
      obtain ⟨texts, aliases⟩ := fieldAliases_texts regular.aliases
      have first := carries v typed outer default names between acceptedFirst space
      rw [normalizeFields]
      refine breaksOnly_bind (steady_fieldName regular full seen named) fun name => ?_
      refine breaksOnly_bind (steady_normalizeUnder typed first) fun type => ?_
      rw [aliases]
      refine breaksOnly_bind (breaksOnly_pure _) fun _ => ?_
      refine breaksOnly_bind ?_ fun _ => breaksOnly_pure _
      exact ih (fun field mem => each field (List.mem_cons_of_mem _ mem)) acceptedRest _
    | _ =>
      rw [acceptFields] at accepted
      · cases accepted
      · intro field is
        cases is

/-- Where there is nothing to go through, nothing is said. -/
theorem truthy_of_elements_nil {v : Json} (listed : v.elements = .ok []) : v.truthy = false := by
  cases v with
  | arr items =>
    cases listed
    rfl
  | str text =>
    have none : text.toList = [] := List.map_eq_nil_iff.1 (Except.ok.inj listed)
    rw [String.toList_eq_nil_iff.1 none]
    rfl
  | obj members =>
    have none : Json.keys members = [] := List.map_eq_nil_iff.1 (Except.ok.inj listed)
    rw [List.map_eq_nil_iff.1 none]
    rfl
  | null | bool | int | float => cases listed

/-- A record whose fields can be normalized. -/
theorem carries_fieldsOf (full : String)
    (each : ∀ items, Json.lookup "fields" members = some (.arr items) →
      ∀ field, .obj field ∈ items → RegularMembers field ∧
        ∀ v, Json.lookup "type" field = some v → Carries v)
    (accepted : acceptFieldsOf outer members names = .ok ((), names')) :
    Steady (normalizeFieldsOf full space members) := by
  rw [acceptFieldsOf_eq] at accepted
  rw [normalizeFieldsOf_eq]
  split at accepted
  · next found =>
    rw [found]
    exact steady_reject _
  · next items found =>
    rw [found]
    cases items with
    | nil => exact steady_reject _
    | cons first rest => exact carries_fields full (each _ found) accepted []
  · next v other found =>
    have nothing : v.truthy = false := by
      split at accepted
      · cases accepted
      · next listed => exact truthy_of_elements_nil listed
      · cases accepted
    rw [found]
    cases v with
    | arr items => exact absurd rfl (other items)
    | _ =>
      dsimp only
      rw [nothing]
      exact steady_reject _

/-- An object that was accepted is normalized without a breakdown, if its parts are. -/
theorem carries_object (regular : RegularMembers members)
    (each : ∀ key v, Json.lookup key members = some v → key ∈ typeKeys → Carries v)
    (eachField : ∀ items, Json.lookup "fields" members = some (.arr items) →
      ∀ field, .obj field ∈ items → RegularMembers field ∧
        ∀ v, Json.lookup "type" field = some v → Carries v) :
    Carries (.obj members) := by
  intro outer default names names' accepted space
  have part : ∀ c : Container, Json.lookup "type" members = some (.str c.word) →
      Steady (normalizeType space (.obj members)) := by
    intro c typed
    obtain ⟨v, found, acceptedPart⟩ := acceptContainer_eq_ok typed accepted
    rw [normalizeType_container space typed]
    refine breaksOnly_bind (steady_normalizeUnder found ?_) fun _ => breaksOnly_pure _
    have key : c.key ∈ typeKeys := by cases c <;> decide
    exact each c.key v found key outer none names names' acceptedPart space
  cases shape members with
  | untyped h =>
    rw [normalizeType_untyped space h]
    exact steady_reject _
  | record isError h =>
    obtain ⟨full, inner, between, -, -, acceptedFields⟩ := acceptRecord_eq_ok h accepted
    rw [normalizeType_record space h]
    refine breaksOnly_bind (steady_introduce regular _) fun (full, aliases) => ?_
    refine breaksOnly_bind ?_ fun _ => breaksOnly_pure _
    exact carries_fieldsOf full eachField acceptedFields
  | enumeration h =>
    obtain ⟨symbols, items, found, listed, texts⟩ := acceptEnum_symbols h accepted
    rw [normalizeType_enumeration space h]
    exact steady_normalizeEnum regular _ found listed texts
  | fixed h =>
    obtain ⟨size, found⟩ := acceptFixed_size h accepted
    rw [normalizeType_fixed space h]
    exact steady_normalizeFixed regular _ found
  | array h => exact part .array h
  | map h => exact part .map h
  | other type h plain =>
    obtain ⟨⟨p, rfl, primitive⟩, -⟩ := acceptOther_eq_ok h plain accepted
    rw [normalizeType_other space h plain, if_neg (by simp)]
    unfold normalizeOther
    dsimp only
    rw [if_pos primitive]
    exact breaksOnly_pure _

end

/-- Every regular type is normalized without a breakdown once it is accepted. -/
theorem carries (v : Json) : (∀ members ∈ objects v, RegularMembers members) → Carries v := by
  induction v using Json.induct with
  | step v ih =>
    intro regular
    cases v with
    | arr branches =>
      intro outer default names names' accepted space
      have each := carries_branches
        (fun b mem => ih b (Json.sizeOf_item mem) fun m inside =>
          regular m (objects_item mem inside))
        (acceptUnion_eq_ok accepted)
      exact steady_union fun v mem => each v mem space
    | obj members =>
      refine carries_object (regular members (self_mem_objects members)) ?_ ?_
      · intro key v found typed
        exact ih v (Json.sizeOf_lookup found) fun m inside =>
          regular m (objects_lookup typed found inside)
      · intro items found field mem
        have within : objects (.obj field) ⊆ objects (.obj members) :=
          List.Subset.trans (objects_item mem) (objects_lookup (by decide) found)
        refine ⟨regular field (within (self_mem_objects field)), fun v typed => ?_⟩
        refine ih v ?_ fun m inside => regular m (within (objects_lookup (by decide) typed inside))
        have := Json.sizeOf_lookup typed
        have := Json.sizeOf_item mem
        have := Json.sizeOf_lookup found
        omega
    | str name =>
      intro outer default names names' accepted space
      rw [normalizeType_str]
      exact steady_resolve name space
    | _ =>
      intro outer default names names' accepted space
      rw [normalizeType]
      · exact steady_reject _
      all_goals simp

end AvroRegistry.Schema
