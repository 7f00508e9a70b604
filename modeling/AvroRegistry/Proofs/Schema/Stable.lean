import AvroRegistry.Proofs.Schema.Reaccepted

/-!
# Stable canonical forms

A canonical form is stable if its full names stand and its defaults fit. What is made of a schema is
accepted and normalized again, to the same value, if it is stable (`acceptTop_again`,
`normalizeType_again`), and only then: a name that does not stand is put behind a namespace, which
shows in the value (`normalizeType_same`), and a default that does not fit is refused
(`acceptType_fits`).
-/

namespace AvroRegistry.Schema

open Json (Everywhere Plain lookup arranged compact)

/-- A form whose value is taken again as it is. -/
structure Form.Stable (form : Form) : Prop where
  names : form.NamesStand ""
  defaults : form.DefaultsFit none

/-! ## Names that show -/

/-- What is read back is introduced under its own name in the namespace around it. -/
theorem Reintroduced.introduced {space full full' : String} {aliases aliases' : List Json}
    {stored : List (String × Json)} (read : Reintroduced full aliases stored)
    (introduced : Introduced space stored full' aliases') : full' = qualify full space := by
  obtain ⟨name, named, -, rfl⟩ := introduced.named
  have own : enclosing space stored = space := by
    unfold enclosing
    rw [read.nowhere]
    exact enclosing_text space
  rw [read.named] at named
  cases named
  rw [own]

/-- One value has one name. -/
theorem Reintroduced.unique {full full' : String} {aliases aliases' : List Json}
    {stored stored' : List (String × Json)} (read : Reintroduced full aliases stored)
    (read' : Reintroduced full' aliases' stored') (same : Json.obj stored' = .obj stored) :
    full' = full := by
  cases same
  have named := read'.named
  rw [read.named] at named
  cases named
  rfl

/-- The names in what is made of a type stand if it is normalized to the same value again. -/
def ShowsNames (space : String) (_ : Json) (_ : List String) (form : Form) (_ : List String) :
    Prop :=
  ∀ again D D', normalizeType space form.ordered D = .ok (again, D') →
    again.ordered = form.ordered → form.NamesStand space

theorem showsNames_branches {space : String} {branches : List Json} {forms : List Form}
    {before after : List String} (along : Along (ShowsNames space) branches before forms after)
    {again : List Form} {D D' : List String}
    (ok : normalizeBranches space (forms.map Form.ordered) D = .ok (again, D'))
    (same : again.map Form.ordered = forms.map Form.ordered) :
    Form.NamesStandInBranches space forms := by
  induction along generalizing again D with
  | nil => trivial
  | cons shows _ ih =>
    obtain ⟨first, between, others, read, readRest, rfl⟩ := normalizeBranches_cons_eq_ok.1 ok
    obtain ⟨here, later⟩ := List.cons.inj same
    exact ⟨shows first D between read here, ih readRest later⟩

theorem showsNames_fields {space full : String} {seen items : List Json}
    {fields : List (FieldHead × Form)} {before after : List String}
    (along : Along (FieldMade (ShowsNames space)) items before fields after)
    {again : List (FieldHead × Form)} {D D' : List String}
    (ok : normalizeFields full space seen (fields.map orderedField) D = .ok (again, D'))
    (same : again.map orderedField = fields.map orderedField) :
    Form.NamesStandInFields space fields := by
  induction along generalizing again D seen with
  | nil => trivial
  | @cons _ field _ _ _ _ _ made _ ih =>
    obtain ⟨_, _, _, _, -, -, -, -, shows, -, -⟩ := made.parts
    rw [List.map_cons, orderedField_eq] at ok
    obtain ⟨name, v, type, between, aliases, others, -, -, -, typed, read, -, readRest, rfl⟩ :=
      normalizeFields_cons_eq_ok.1 ok
    obtain ⟨here, later⟩ := List.cons.inj same
    have typed' : lookup "type" (readBack (fieldMembers field.1 field.2.toJson)) =
        some field.2.ordered := (fieldRead field.1 field.2.toJson).typed
    rw [typed'] at typed
    cases typed
    refine ⟨shows type D between read ?_, ih readRest later⟩
    rw [orderedField_eq, orderedField_eq] at here
    have types := congrArg (lookup "type") (Json.obj.inj here)
    rw [typed', (fieldRead _ _).typed] at types
    exact Option.some.inj types

/-- If normalizing the value of what was made gives that value, the names in it stand. -/
theorem normalizeType_same {space : String} {v : Json} {form : Form} {before after : List String}
    (ok : normalizeType space v before = .ok (form, after)) :
    ShowsNames space v before form after := by
  refine normalizeType_traced (motive := ShowsNames) ?word ?union ?container ?record ?enumeration
    ?fixed ?primitive ?reference v ok
  case word =>
    intro space name D form D' ok again _ _ _ _
    obtain ⟨n, rfl, -⟩ := resolve_eq_ok ok
    trivial
  case reference =>
    intro space members name D form D' _ _ _ ok again _ _ _ _
    obtain ⟨n, rfl, -⟩ := resolve_eq_ok ok
    trivial
  case primitive =>
    intro space members name D _ _ again _ _ _ _
    unfold primitiveForm
    split
    all_goals trivial
  case union =>
    intro space branches D forms D' _ along again before after ok same
    rw [readBack_union] at ok
    obtain ⟨-, forms', rfl, read⟩ := normalizeUnion_eq_ok ok
    rw [readBack_union, readBack_union] at same
    exact showsNames_branches along read (Json.arr.inj same)
  case container =>
    intro space c members v D part D' _ _ shows again before after ok same
    have read := partRead c part
    rw [readBack_container] at ok
    obtain ⟨v', part', found, made, rfl⟩ := normalizeContainer_eq_ok read.typed ok
    rw [read.held] at found
    cases found
    refine c.namesStand_iff.2 (shows part' before after made ?_)
    rw [readBack_container, readBack_container] at same
    have parts := congrArg (lookup c.key) (Json.obj.inj same)
    rw [read.held, (partRead c part').held] at parts
    exact Option.some.inj parts
  case record =>
    intro space isError members full aliases items D fields D' _ _ _ _ along again before after ok
      same
    obtain ⟨read, word, listed⟩ := recordRead isError full aliases fields
    rw [readBack_record] at ok
    obtain ⟨full', aliases', between, first, rest, fields', introduced, found, made, rfl⟩ :=
      normalizeRecord_eq_ok word ok
    obtain ⟨named, -⟩ := introduced_of_introduce introduced
    obtain ⟨read', -, listed'⟩ := recordRead isError full' aliases' fields'
    rw [readBack_record, readBack_record] at same
    rw [Json.obj.inj same, found] at listed'
    rw [found] at listed
    obtain rfl := read.unique read' same
    have items := Json.arr.inj (Option.some.inj listed)
    have items' := Json.arr.inj (Option.some.inj listed')
    rw [items] at made
    exact ⟨(read.introduced named).symm,
      showsNames_fields along made (items'.symm.trans items)⟩
  case enumeration =>
    intro space members full aliases symbols items D _ _ _ _ _ again before after ok same
    have read := enumRead full aliases items (lookup "default" members)
    rw [readBack_enumeration, normalizeType_enumeration space read.typed] at ok
    obtain ⟨full', aliases', symbols', items', made, rfl, -⟩ := normalizeEnum_eq_ok ok
    obtain ⟨introduced, -⟩ := introduced_of_introduce made
    rw [readBack_enumeration, readBack_enumeration] at same
    have name := read.toReintroduced.unique (enumRead full' _ _ _).toReintroduced same
    exact (read.toReintroduced.introduced introduced).symm.trans name
  case fixed =>
    intro space members full aliases size D _ _ _ again before after ok same
    have read := fixedRead full aliases size members
    rw [readBack_fixed, normalizeType_fixed space read.typed] at ok
    obtain ⟨full', aliases', size', made, rfl, -⟩ := normalizeFixed_eq_ok ok
    obtain ⟨introduced, -⟩ := introduced_of_introduce made
    rw [readBack_fixed, readBack_fixed] at same
    have name := read.toReintroduced.unique (fixedRead full' _ _ _).toReintroduced same
    exact (read.toReintroduced.introduced introduced).symm.trans name

/-! ## Defaults that are refused -/

section

variable {names names' : Names} {u : Unit}

theorem requireBranchDefault_eq_ok {default : Option Json} {branches : List Json}
    (ok : requireBranchDefault default branches names = .ok (u, names')) :
    ∀ d, default = some d → fitsSome d branches = .ok true := by
  rintro d rfl
  unfold requireBranchDefault at ok
  dsimp only at ok
  cases found : fitsSome d branches with
  | error b =>
    rw [found] at ok
    cases ok
  | ok fitting =>
    rw [found] at ok
    cases fitting with
    | true => rfl
    | false => cases ok

/-- The default of an enum that is accepted is one of its symbols. -/
theorem checkSymbols_default {members : List (String × Json)} {items : List Json} {d : Json}
    (ok : checkSymbols members names = .ok (u, names'))
    (found : lookup "symbols" members = some (.arr items))
    (given : lookup "default" members = some d) : d.isIn items = true := by
  unfold checkSymbols at ok
  obtain ⟨symbols, has, ok⟩ := bind_of_quiet (quiet_member _ _) ok
  have same := member_eq_ok has
  rw [found] at same
  cases same
  dsimp only [Json.elements] at ok
  obtain ⟨_, -, ok⟩ := bind_of_quiet (quiet_require _ _) ok
  obtain ⟨_, -, ok⟩ := bind_of_quiet (quiet_require _ _) ok
  rw [given] at ok
  exact require_eq_ok ok

end

/-- The defaults in what is made of a type fit if it is accepted. -/
def RequiresFit (_ : String) (v : Json) (_ : List String) (form : Form) (_ : List String) : Prop :=
  v.Everywhere Plain → ∀ outer default names names',
    acceptType outer (default.map (arranged compact)) form.ordered names = .ok ((), names') →
      form.DefaultsFit default

theorem requiresFit_branches {space : String} {branches : List Json} {forms : List Form}
    {before after : List String} (along : Along (RequiresFit space) branches before forms after)
    (plain : ∀ v ∈ branches, v.Everywhere Plain) {outer : Space} {names names' : Names}
    (accepted : acceptBranches outer (forms.map Form.ordered) names = .ok ((), names')) :
    Form.DefaultsFitInBranches forms := by
  induction along generalizing names with
  | nil => trivial
  | cons requires _ ih =>
    obtain ⟨plainHere, plain⟩ := List.forall_mem_cons.1 plain
    rw [List.map_cons, acceptBranches] at accepted
    obtain ⟨_, between, here, later⟩ := Run.bind_eq_ok.1 accepted
    exact ⟨requires plainHere outer none names between here, ih plain later⟩

theorem requiresFit_fields {space : String} {items : List Json} {fields : List (FieldHead × Form)}
    {before after : List String}
    (along : Along (FieldMade (RequiresFit space)) items before fields after)
    (plain : ∀ v ∈ items, v.Everywhere Plain) {outer : Space} {names names' : Names}
    (accepted : acceptFields outer (fields.map orderedField) names = .ok ((), names')) :
    Form.DefaultsFitInFields fields := by
  induction along generalizing names with
  | nil => trivial
  | @cons _ field _ _ _ _ _ made _ ih =>
    obtain ⟨members, _, _, _, rfl, -, -, typed, requires, -, -⟩ := made.parts
    obtain ⟨plainHere, plain⟩ := List.forall_mem_cons.1 plain
    have read := fieldRead field.1 field.2.toJson
    have type : lookup "type" (readBack (fieldMembers field.1 field.2.toJson)) =
        some field.2.ordered := read.typed
    rw [List.map_cons, orderedField_eq, acceptFields] at accepted
    obtain ⟨_, -, accepted⟩ := bind_of_quiet (quiet_checkField _) accepted
    obtain ⟨_, between, here, later⟩ := Run.bind_eq_ok.1 accepted
    rw [acceptUnder_eq, type, read.default] at here
    exact ⟨requires (plainHere.lookup typed) outer _ names between here, ih plain later⟩

/-- If the value of what was made is accepted, the defaults in it fit. -/
theorem acceptType_fits {space : String} {v : Json} {form : Form} {before after : List String}
    (ok : normalizeType space v before = .ok (form, after)) :
    RequiresFit space v before form after := by
  refine normalizeType_traced (motive := RequiresFit) ?word ?union ?container ?record ?enumeration
    ?fixed ?primitive ?reference v ok
  case word =>
    intro space name D form D' ok _ _ _ _ _ _
    obtain ⟨n, rfl, -⟩ := resolve_eq_ok ok
    trivial
  case reference =>
    intro space members name D form D' _ _ _ ok _ _ _ _ _ _
    obtain ⟨n, rfl, -⟩ := resolve_eq_ok ok
    trivial
  case primitive =>
    intro space members name D _ _ _ _ _ _ _ _
    unfold primitiveForm
    split
    all_goals trivial
  case union =>
    intro space branches D forms D' _ along plain outer default names names' accepted
    rw [readBack_union, acceptType] at accepted
    obtain ⟨_, between, each, rest⟩ := Run.bind_eq_ok.1 accepted
    refine ⟨fun d given => ?_,
      requiresFit_branches along ((Json.everywhere_arr branches).1 plain).2 each⟩
    have fits := requireBranchDefault_eq_ok rest (arranged compact d) (given ▸ rfl)
    rw [← fitsSome_arranged, List.map_map]
    exact fits
  case container =>
    intro space c members v D part D' _ found requires plain outer default names names' accepted
    have read := partRead c part
    rw [readBack_container] at accepted
    obtain ⟨v', found', inside⟩ := acceptContainer_eq_ok read.typed accepted
    rw [read.held] at found'
    cases found'
    exact c.defaultsFit_iff.2 (requires (plain.lookup found) outer none names names' inside)
  case record =>
    intro space isError members full aliases items D fields D' _ _ found _ along plain outer default
      names names' accepted
    obtain ⟨-, word, listed⟩ := recordRead isError full aliases fields
    rw [readBack_record] at accepted
    obtain ⟨full', inner, between, -, -, inside⟩ := acceptRecord_eq_ok word accepted
    rw [acceptFieldsOf_eq, listed] at inside
    exact requiresFit_fields along ((Json.everywhere_arr items).1 (plain.lookup found)).2 inside
  case enumeration =>
    intro space members full aliases symbols items D _ _ found listed _ plain outer default names
      names' accepted d given
    have read := enumRead full aliases items (lookup "default" members)
    rw [readBack_enumeration] at accepted
    obtain ⟨⟨at_, checked⟩, -⟩ := acceptEnum_checked read.typed accepted
    have defaulted := read.defaulted.trans (congrArg (Option.map (arranged compact)) given)
    rw [← Json.isIn_arranged_plain compact compact (plain.lookup given)
      (Json.plain_elements (plain.lookup found) listed)]
    exact checkSymbols_default checked read.listed defaulted
  case fixed =>
    intro space members full aliases size D _ _ _ _ _ _ _ _ _
    trivial

/-! ## The top of a schema -/

/-- The defaults in what is made of a schema fit if it is accepted at the top. -/
def RequiresFitAtTop (v : Json) : Prop :=
  ∀ form names names' before after, v.Everywhere Plain →
    normalizeType "" v before = .ok (form, after) →
      acceptTop form.ordered names = .ok ((), names') → form.DefaultsFit none

theorem requiresFit_definition {v : Json} (array : ∀ items, v ≠ .arr items)
    (unmarked : ∀ members, v = .obj members → lookup processedMark members = none) :
    RequiresFitAtTop v := by
  intro form names names' before after plain ok accepted
  have list := ordered_single (normalizeType_single array ok)
  rw [acceptTop_definition list (topIsDefinition_of_made ok plain unmarked)] at accepted
  unfold acceptDefinition at accepted
  rw [Run.bind_of_ok (Run.modify_apply _ names)] at accepted
  exact acceptType_fits ok plain .outermost none _ names' accepted

theorem requiresFit_each {branches : List Json} (each : ∀ v ∈ branches, RequiresFitAtTop v)
    {forms : List Form} {names names' : Names} {before after : List String}
    (plain : ∀ v ∈ branches, v.Everywhere Plain)
    (ok : normalizeBranches "" branches before = .ok (forms, after))
    (accepted : acceptEach (forms.map Form.ordered) names = .ok ((), names')) :
    Form.DefaultsFitInBranches forms := by
  induction branches generalizing names before forms with
  | nil =>
    rw [normalizeBranches] at ok
    cases ok
    trivial
  | cons branch rest ih =>
    obtain ⟨first, between, others, read, readRest, rfl⟩ := normalizeBranches_cons_eq_ok.1 ok
    obtain ⟨plainHere, plain⟩ := List.forall_mem_cons.1 plain
    obtain ⟨requires, each⟩ := List.forall_mem_cons.1 each
    rw [List.map_cons, acceptEach] at accepted
    obtain ⟨_, middle, here, later⟩ := Run.bind_eq_ok.1 accepted
    exact ⟨requires first names middle before between plainHere read here,
      ih each plain readRest later⟩

/-- If the canonical form of a schema without the mark is accepted, the defaults in it fit. -/
theorem acceptTop_fits {v : Json} (unmarked : Unmarked v) : RequiresFitAtTop v := by
  induction unmarked with
  | @union branches each ih =>
    intro form names names' before after plain ok accepted
    obtain ⟨-, forms, rfl, made⟩ := normalizeUnion_eq_ok ok
    rw [readBack_union, acceptTop] at accepted
    exact ⟨by simp,
      requiresFit_each ih ((Json.everywhere_arr branches).1 plain).2 made accepted⟩
  | object h => exact requiresFit_definition (by simp) fun m is => Json.obj.inj is ▸ h
  | word array object => exact requiresFit_definition array fun m is => absurd is (object m)

end AvroRegistry.Schema
