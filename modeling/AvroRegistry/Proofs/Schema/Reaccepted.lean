import AvroRegistry.Proofs.Schema.Closed
import AvroRegistry.Proofs.Schema.Rechecked
import AvroRegistry.Proofs.Schema.Renormalized

/-!
# Accepting a canonical form again

What is made of a schema that has been accepted is accepted in its turn, with the same names after
it, if its full names stand and its defaults fit (`acceptTop_again`). The two walks of accepting are
run side by side, over a type and over what normalizing has made of it: each passes on the namespace
that normalizing has found, and both know the names that normalizing has defined by then.

A default that was let through need not fit the canonical form. A branch of a union that is an
object takes any default, and the canonical form has the bare name in its place; the default of an
enum is looked for among its symbols, and where these were given as a text, any part of the text is
found.
-/

namespace AvroRegistry.Schema

open Json (Everywhere Plain lookup arranged compact)

/-! ## Defaults that fit -/

mutual

/-- Whether the defaults in a form fit as the form has them: that of a union some branch, that of an
enum one of the symbols. -/
def Form.DefaultsFit (default : Option Json) : Form → Prop
  | name _ => True
  | annotated _ _ => True
  | union branches =>
    (∀ d, default = some d → fitsSome d (branches.map toJson) = .ok true) ∧
      DefaultsFitInBranches branches
  | array items => items.DefaultsFit none
  | map values => values.DefaultsFit none
  | record _ _ _ fields => DefaultsFitInFields fields
  | enumeration _ _ symbols own => ∀ d, own = some d → d.isIn symbols = true
  | fixed _ _ _ _ => True

/-- Whether they do in the branches of a union. -/
def Form.DefaultsFitInBranches : List Form → Prop
  | [] => True
  | branch :: rest => branch.DefaultsFit none ∧ DefaultsFitInBranches rest

/-- Whether they do in the fields of a record. -/
def Form.DefaultsFitInFields : List (FieldHead × Form) → Prop
  | [] => True
  | (head, type) :: rest => type.DefaultsFit head.default ∧ DefaultsFitInFields rest

end

theorem Container.defaultsFit_iff (c : Container) {default : Option Json} {part : Form} :
    (c.form part).DefaultsFit default ↔ part.DefaultsFit none := by
  cases c
  all_goals exact Iff.rfl

/-! ## Named types, accepted again -/

/-- A full name that stands is the full name of what is read back. -/
theorem fullNameOf_again {space full : String} {aliases : List Json}
    {stored : List (String × Json)} (read : Reintroduced full aliases stored)
    (stands : qualify full space = full) (names : Names) :
    fullNameOf (.text space) stored names = .ok ((full, .text (spaceOf full)), names) := by
  unfold fullNameOf
  rw [read.named]
  dsimp only
  by_cases dotted : isDotted full = true
  · rw [if_pos dotted]
    rfl
  · have plain : isDotted full = false := by simpa using dotted
    have nowhere : space = "" := by
      by_contra some
      rw [qualify_plain plain some] at stands
      exact dotted (stands ▸ dotted_append space full)
    rw [if_neg dotted, spaceOf_plain plain, nowhere]
    unfold Space.within
    rw [read.nowhere]
    rfl

/-- What accepting calls a type is what normalizing calls it. -/
theorem fullNameOf_introduced {outer inner : Space} {space full full' : String}
    {aliases : List Json} {members : List (String × Json)} {names between : Names}
    (stands : outer.Shows space) (introduced : Introduced space members full aliases)
    (accepted : fullNameOf outer members names = .ok ((full', inner), between)) :
    full' = full ∧ inner.Shows (spaceOf full) ∧ between = names := by
  obtain ⟨name, named, -, is⟩ := introduced.named
  obtain ⟨rfl, inside, rfl⟩ := fullNameOf_str stands named accepted
  exact ⟨is.symm, is ▸ inside, rfl⟩

theorem declare_free {full : String} {names : Names} (free : full ∉ names.declared) :
    declare full names = .ok ((), { names with declared := full :: names.declared }) := by
  have new : (!names.declared.contains full) = true := by simpa using free
  unfold declare
  rw [Run.bind_of_ok (Run.get_apply names), new]
  rfl

section

variable {space full : String} {aliases : List Json} {stored : List (String × Json)}
  {default : Option Json} {names : Names}

theorem acceptRecord_again {isError : Bool} {fields : List (FieldHead × Form)} {names' : Names}
    (read : RecordRead isError full aliases fields stored)
    (unscaled : lookup "logicalType" stored = none) (stands : qualify full space = full)
    (free : full ∉ names.declared) (fits : ∀ d, default = some d → isObject d = .ok true)
    (inside : acceptFields (.text (spaceOf full)) (fields.map orderedField) (names.define full) =
      .ok ((), names')) :
    acceptType (.text space) default (.obj stored) names = .ok ((), names') := by
  rw [acceptType_record _ default read.typed, Run.bind_of_ok (checkDecimal_unmarked _ unscaled _),
    Run.bind_of_ok (fullNameOf_again read.toReintroduced stands names)]
  dsimp only
  rw [Run.bind_of_ok (declare_free free), Run.bind_of_ok (requireDefault_fits _ fits _),
    Run.bind_of_ok (learn_apply full _), acceptFieldsOf_eq, read.listed]
  exact inside

theorem acceptEnum_again {symbols : List Json} {own : Option Json}
    (read : EnumRead full aliases symbols own stored)
    (unscaled : lookup "logicalType" stored = none) (stands : qualify full space = full)
    (free : full ∉ names.declared) (fits : ∀ d, default = some d → isText d = .ok true)
    (checked : ∀ names, checkSymbols stored names = .ok ((), names)) :
    acceptType (.text space) default (.obj stored) names = .ok ((), names.define full) := by
  rw [acceptType_enumeration _ default read.typed,
    Run.bind_of_ok (checkDecimal_unmarked _ unscaled _),
    Run.bind_of_ok (fullNameOf_again read.toReintroduced stands names)]
  dsimp only
  rw [Run.bind_of_ok (declare_free free), Run.bind_of_ok (checked _),
    Run.bind_of_ok (requireDefault_fits _ fits _)]
  rfl

theorem acceptFixed_again {size : Json} {members : List (String × Json)}
    (read : FixedRead full aliases size members stored) (stands : qualify full space = full)
    (free : full ∉ names.declared) (fits : ∀ d, default = some d → isText d = .ok true)
    (decimal : checkDecimal (.str "fixed") stored names = .ok ((), names)) :
    acceptType (.text space) default (.obj stored) names = .ok ((), names.define full) := by
  rw [acceptType_fixed _ default read.typed, Run.bind_of_ok decimal,
    Run.bind_of_ok (fullNameOf_again read.toReintroduced stands names)]
  dsimp only
  rw [Run.bind_of_ok (declare_free free), Run.bind_of_ok (requireDefault_fits _ fits _),
    Run.bind_of_ok (learn_apply full _)]
  unfold member
  rw [read.sized]
  rfl

end

/-! ## Symbols, parts and attributes, accepted again -/

/-- Symbols are still symbols, and a default that is one of them still is. -/
theorem checkSymbols_again {full : String} {aliases items : List Json} {symbols : Json}
    {members stored : List (String × Json)} {at_ : Names}
    (plain : (Json.obj members).Everywhere Plain)
    (found : lookup "symbols" members = some symbols) (listed : symbols.elements = .ok items)
    (read : EnumRead full aliases items (lookup "default" members) stored)
    (ok : checkSymbols members at_ = .ok ((), at_))
    (fits : ∀ d, lookup "default" members = some d → d.isIn items = true) (names : Names) :
    checkSymbols stored names = .ok ((), names) := by
  unfold checkSymbols at ok
  obtain ⟨symbols', member_, ok⟩ := bind_of_quiet (quiet_member _ _) ok
  have same := member_eq_ok member_
  rw [found] at same
  cases same
  rw [listed] at ok
  obtain ⟨_, each, ok⟩ := bind_of_quiet (quiet_require _ _) ok
  obtain ⟨_, apart, -⟩ := bind_of_quiet (quiet_require _ _) ok
  have each := require_eq_ok each
  have apart := require_eq_ok apart
  have here : member "symbols" stored names = .ok (.arr items, names) := by
    unfold member
    rw [read.listed, arranged_keys (keys_of_symbols each)]
    rfl
  unfold checkSymbols
  rw [Run.bind_of_ok here]
  dsimp only [Json.elements]
  rw [each, apart, read.defaulted]
  cases given : lookup "default" members with
  | none => rfl
  | some d =>
    have isIn : (arranged compact d).isIn items = true := by
      rw [← fits d given, ← Json.isIn_arranged_plain compact compact (plain.lookup given)
        (Json.plain_elements (plain.lookup found) listed), arranged_keys (keys_of_symbols each)]
    show (require ((arranged compact d).isIn items) _ : Reading Unit) names = _
    rw [isIn]
    rfl

theorem acceptContainer_again {c : Container} {part : Form} {space : String}
    {default : Option Json} {stored : List (String × Json)} {names names' : Names}
    (read : PartRead c part stored) (fits : ∀ d, default = some d → c.fits d = .ok true)
    (inside : acceptType (.text space) none part.ordered names = .ok ((), names')) :
    acceptType (.text space) default (.obj stored) names = .ok ((), names') := by
  have unscaled := read.others "logicalType" (by decide)
  rw [acceptType_container _ default read.typed,
    Run.bind_of_ok (checkDecimal_unmarked _ unscaled _), acceptUnder_eq, read.held]
  dsimp only
  rw [Run.bind_of_ok inside, requireDefault_fits _ fits]

/-! ## Words and primitive types, accepted again -/

theorem acceptWord_again {name : String} (primitive : isPrimitive name = true)
    {default : Option Json} (fits : ∀ d, default = some d → fitsPrimitive false name d = .ok true)
    (space : Space) (names : Names) :
    acceptType space (default.map (arranged compact)) (.str name) names = .ok ((), names) := by
  rw [acceptType_primitive space _ primitive]
  exact requireDefault_fits _ (fits_again (fitsPrimitive_arranged _ _) fits) names

/-- The qualified name of a known type is accepted in any namespace that has qualified it. -/
theorem acceptReference_again {name space : String} (other : isPrimitive name = false)
    {names : Names} (known : qualify name space ∈ names.known) (default : Option Json) :
    acceptType (.text space) default (.str (qualify name space)) names = .ok ((), names) := by
  rw [acceptType_str]
  unfold acceptWord referent
  dsimp only
  rw [isPrimitive_qualify other space, if_neg Bool.false_ne_true, qualify_qualify,
    Run.bind_of_ok (Run.get_apply names), List.contains_iff_mem.2 known]
  rfl

theorem lookup_attributes {key : String} (other : (key != "type" && key != "doc") = true)
    (members : List (String × Json)) :
    lookup key (attributes members) = lookup key members := by
  induction members with
  | nil => rfl
  | cons m rest ih =>
    obtain ⟨k, v⟩ := m
    unfold attributes at ih ⊢
    rw [Json.lookup_cons]
    by_cases here : k = key
    · rw [List.filter_cons_of_pos (here ▸ other), Json.lookup_cons]
      simp [here]
    · rw [if_neg here, ← ih, List.filter_cons]
      split
      · rw [Json.lookup_cons, if_neg here]
      · rfl

/-- A primitive type is accepted again, by its name or with its attributes. -/
theorem acceptPrimitive_again {name : String} {members : List (String × Json)}
    (primitive : isPrimitive name = true) (distinct : (Json.keys members).Nodup)
    {default : Option Json} (fits : ∀ d, default = some d → fitsPrimitive true name d = .ok true)
    {names : Names} (decimal : checkDecimal (.str name) members names = .ok ((), names))
    (space : Space) :
    acceptType space (default.map (arranged compact)) (primitiveForm name members).ordered names =
      .ok ((), names) := by
  unfold primitiveForm
  split
  · exact acceptWord_again primitive (fun d given => fitsPrimitive_lenient (fits d given)) space
      names
  · have found := lookup_readBack (keys_annotatedMembers name distinct)
    have typed : lookup "type" (readBack (annotatedMembers name (attributes members))) =
        some (.str name) := found "type"
    have read : ∀ key ∈ decimalKeys,
        lookup key (readBack (annotatedMembers name (attributes members))) =
          (lookup key members).map (arranged compact) := by
      intro key mem
      have other : ∀ key ∈ decimalKeys, (key != "type" && key != "doc") = true := by decide
      have apart : "type" ≠ key := by
        have := other key mem
        rintro rfl
        cases this
      rw [found, annotatedMembers, Json.lookup_cons, if_neg apart,
        lookup_attributes (other key mem)]
    rw [readBack_annotated, acceptType_other space _ typed (isConstructor_primitive primitive),
      Run.bind_of_ok (grants_checkDecimal read _ names _ decimal)]
    unfold acceptPrimitive
    dsimp only
    rw [if_pos primitive]
    exact requireDefault_fits _ (fits_again (fitsPrimitive_arranged _ _) fits) names

/-! ## Types, one after the other -/

/-- What is made of a type that has been accepted is accepted, with the same names, if its names
stand and its defaults fit. -/
def Reaccepts (space : String) (v : Json) (before : List String) (form : Form)
    (after : List String) : Prop :=
  ∀ outer default names names', outer.Shows space → names.known = before →
    acceptType outer default v names = .ok ((), names') →
      names'.known = after ∧
        (v.Everywhere Plain → form.NamesStand space → form.DefaultsFit default →
          acceptType (.text space) (default.map (arranged compact)) form.ordered names =
            .ok ((), names'))

theorem reaccepts_branches {space : String} {outer : Space} {branches : List Json}
    {forms : List Form} {before after : List String}
    (along : Along (Reaccepts space) branches before forms after) (stands : outer.Shows space)
    {names names' : Names} (known : names.known = before)
    (accepted : acceptBranches outer branches names = .ok ((), names')) :
    names'.known = after ∧
      ((∀ v ∈ branches, v.Everywhere Plain) → Form.NamesStandInBranches space forms →
        Form.DefaultsFitInBranches forms →
          acceptBranches (.text space) (forms.map Form.ordered) names = .ok ((), names')) := by
  induction along generalizing names with
  | nil state =>
    rw [acceptBranches] at accepted
    cases accepted
    refine ⟨known, fun _ _ _ => ?_⟩
    rw [List.map_nil, acceptBranches]
    rfl
  | cons first _ ih =>
    rw [acceptBranches] at accepted
    obtain ⟨_, between, here, later⟩ := Run.bind_eq_ok.1 accepted
    obtain ⟨knownHere, againHere⟩ := first outer none names between stands known here
    obtain ⟨knownLater, againLater⟩ := ih knownHere later
    refine ⟨knownLater, fun plain stand fit => ?_⟩
    obtain ⟨plainHere, plain⟩ := List.forall_mem_cons.1 plain
    have again := againHere plainHere stand.1 fit.1
    rw [Option.map_none] at again
    rw [List.map_cons, acceptBranches, Run.bind_of_ok again]
    exact againLater plain stand.2 fit.2

/-- A field that is read back has a name, a type, and aliases in a list if it has any. -/
theorem checkField_again {head : FieldHead} {type : Json} {stored : List (String × Json)}
    (read : FieldRead head type stored) (names : Names) :
    checkField stored names = .ok ((), names) := by
  unfold checkField
  rw [read.named, read.typed, read.aliased]
  cases head.aliases <;> rfl

theorem reaccepts_fields {space : String} {outer : Space} {items : List Json}
    {fields : List (FieldHead × Form)} {before after : List String}
    (along : Along (FieldMade (Reaccepts space)) items before fields after)
    (stands : outer.Shows space) {names names' : Names} (known : names.known = before)
    (accepted : acceptFields outer items names = .ok ((), names')) :
    names'.known = after ∧
      ((∀ v ∈ items, v.Everywhere Plain) → Form.NamesStandInFields space fields →
        Form.DefaultsFitInFields fields →
          acceptFields (.text space) (fields.map orderedField) names = .ok ((), names')) := by
  induction along generalizing names with
  | nil state =>
    rw [acceptFields] at accepted
    cases accepted
    refine ⟨known, fun _ _ _ => ?_⟩
    rw [List.map_nil, acceptFields]
    rfl
  | @cons item field _ fields _ _ _ first _ ih =>
    obtain ⟨members, name, v, aliases, rfl, -, -, typed, reaccepts, -, is⟩ := first.parts
    rw [acceptFields] at accepted
    obtain ⟨_, -, accepted⟩ := bind_of_quiet (quiet_checkField _) accepted
    obtain ⟨_, between, here, later⟩ := Run.bind_eq_ok.1 accepted
    obtain ⟨v', typed', here⟩ := acceptUnder_eq_ok here
    rw [typed] at typed'
    cases typed'
    obtain ⟨knownHere, againHere⟩ := reaccepts outer _ names between stands known here
    obtain ⟨knownLater, againLater⟩ := ih knownHere later
    refine ⟨knownLater, fun plain stand fit => ?_⟩
    obtain ⟨plainHere, plain⟩ := List.forall_mem_cons.1 plain
    have default : field.1.default = lookup "default" members := is ▸ rfl
    have read := fieldRead field.1 field.2.toJson
    have type : lookup "type" (readBack (fieldMembers field.1 field.2.toJson)) =
        some field.2.ordered := read.typed
    have again := againHere (plainHere.lookup typed) stand.1 (default ▸ fit.1)
    rw [List.map_cons, orderedField_eq, acceptFields,
      Run.bind_of_ok (checkField_again read names), acceptUnder_eq, type, read.default, default]
    dsimp only
    rw [Run.bind_of_ok again]
    exact againLater plain stand.2 fit.2

/-- What is made of a type that has been accepted is accepted again. -/
theorem acceptType_again {space : String} {v : Json} {form : Form} {before after : List String}
    (ok : normalizeType space v before = .ok (form, after)) :
    Reaccepts space v before form after := by
  refine normalizeType_traced (motive := Reaccepts) ?word ?union ?container ?record ?enumeration
    ?fixed ?primitive ?reference v ok
  case word =>
    intro space name D form D' ok outer default names names' stands known accepted
    obtain ⟨meant, rfl⟩ := acceptWord_eq_ok accepted
    obtain ⟨-, -, -, rfl⟩ := resolve_eq_ok ok
    refine ⟨known, fun _ _ _ => ?_⟩
    cases primitive : isPrimitive name with
    | true =>
      rw [resolve_primitive primitive] at ok
      cases ok
      exact acceptWord_again primitive (acceptWord_default primitive accepted) _ names'
    | false =>
      obtain ⟨full, refers, found⟩ := meant.resolve_left (by simp [primitive])
      obtain rfl := referent_eq_ok stands refers
      have direct : Direct space D' (.str name) := .inr (known ▸ found)
      rw [resolve_of_direct direct, primitive, if_neg Bool.false_ne_true] at ok
      cases ok
      exact acceptReference_again primitive found _
  case reference =>
    intro space members name D form D' typed plain other ok outer default names names' stands known
      accepted
    obtain ⟨⟨p, same, primitive⟩, -⟩ := acceptOther_eq_ok typed plain accepted
    cases same
    rw [other] at primitive
    cases primitive
  case primitive =>
    intro space members name D typed primitive outer default names names' stands known accepted
    obtain ⟨-, rfl⟩ := acceptOther_eq_ok typed (isConstructor_primitive primitive) accepted
    obtain ⟨decimal, fits⟩ := acceptPrimitive_checked typed primitive accepted
    exact ⟨known, fun plain _ _ =>
      acceptPrimitive_again primitive plain.self fits decimal (.text space)⟩
  case union =>
    intro space branches D forms D' _ along outer default names names' stands known accepted
    obtain ⟨after, again⟩ :=
      reaccepts_branches along stands known (acceptUnion_eq_ok accepted)
    refine ⟨after, fun plain stand fit => ?_⟩
    rw [readBack_union, acceptType,
      Run.bind_of_ok (again ((Json.everywhere_arr branches).1 plain).2 stand fit.2)]
    refine requireBranchDefault_fits (fits_again (fun d fits => ?_) fit.1) names'
    rw [← fitsSome_arranged, List.map_map] at fits
    exact fits
  case container =>
    intro space c members v D part D' typed found reaccepts outer default names names' stands known
      accepted
    obtain ⟨v', found', inside⟩ := acceptContainer_eq_ok typed accepted
    rw [found] at found'
    cases found'
    obtain ⟨after, again⟩ := reaccepts outer none names names' stands known inside
    refine ⟨after, fun plain stand fit => ?_⟩
    rw [readBack_container]
    exact acceptContainer_again (partRead c part)
      (fits_again c.fits_arranged (acceptContainer_default typed accepted))
      (again (plain.lookup found) (c.namesStand_iff.1 stand) (c.defaultsFit_iff.1 fit))
  case record =>
    intro space isError members full aliases items D fields D' typed introduced found _ along outer
      default names names' stands known accepted
    obtain ⟨full', inner, between, named, free, inside⟩ := acceptRecord_eq_ok typed accepted
    obtain ⟨rfl, shows, rfl⟩ := fullNameOf_introduced stands introduced named
    rw [acceptFieldsOf_eq, found] at inside
    obtain ⟨after, again⟩ :=
      reaccepts_fields along shows (congrArg (full' :: ·) known) inside
    refine ⟨after, fun plain stand fit => ?_⟩
    rw [readBack_record]
    refine acceptRecord_again (recordRead isError full' aliases fields) ?_ stand.1 free
      (fits_again isObject_arranged (acceptRecord_default typed accepted))
      (again ((Json.everywhere_arr items).1 (plain.lookup found)).2 stand.2 fit)
    rw [lookup_readBack (keys_recordMembers isError full' aliases fields), lookup_recordMembers]
    rfl
  case enumeration =>
    intro space members full aliases symbols items D typed introduced found listed _ outer default
      names names' stands known accepted
    obtain ⟨full', inner, between, named, free, rfl⟩ := acceptEnum_eq_ok typed accepted
    obtain ⟨rfl, -, rfl⟩ := fullNameOf_introduced stands introduced named
    obtain ⟨⟨at_, checked⟩, fits⟩ := acceptEnum_checked typed accepted
    refine ⟨congrArg (full' :: ·) known, fun plain stand fit => ?_⟩
    have read := enumRead full' aliases items (lookup "default" members)
    rw [readBack_enumeration]
    refine acceptEnum_again read ?_ stand free (fits_again isText_arranged fits)
      (checkSymbols_again plain found listed read checked fit)
    rw [lookup_readBack (keys_enumMembers full' aliases items _), lookup_enumMembers]
    rfl
  case fixed =>
    intro space members full aliases size D typed introduced found outer default names names' stands
      known accepted
    obtain ⟨full', inner, between, named, free, rfl⟩ := acceptFixed_eq_ok typed accepted
    obtain ⟨rfl, -, rfl⟩ := fullNameOf_introduced stands introduced named
    obtain ⟨decimal, fits⟩ := acceptFixed_checked typed accepted
    refine ⟨congrArg (full' :: ·) known, fun plain stand fit => ?_⟩
    have read := fixedRead full' aliases size members
    have kept : ∀ key ∈ decimalKeys,
        lookup key (readBack (fixedMembers full' aliases size (fixedAttributes members))) =
          (lookup key members).map (arranged compact) := by
      intro key mem
      by_cases sized : key = "size"
      · rw [sized, read.sized, found]
        rfl
      · refine read.kept key ?_
        revert key
        decide
    rw [readBack_fixed]
    exact acceptFixed_again read stand free (fits_again isText_arranged fits)
      (grants_checkDecimal kept _ between _ decimal)

/-! ## The top of a schema -/

/-- The value of a form at the top is looked at like any other value: it is not marked. -/
def TopIsDefinition (form : Form) : Prop :=
  ∀ stored, form.ordered = .obj stored → lookup processedMark stored = none

/-- What is made of a value without the mark does not have it. -/
theorem topIsDefinition_of_made {space : String} {v : Json} {form : Form}
    {before after : List String} (ok : normalizeType space v before = .ok (form, after)) :
    v.Everywhere Plain → (∀ members, v = .obj members → lookup processedMark members = none) →
      TopIsDefinition form := by
  have word : ∀ {name space form D D'}, resolve name space D = .ok (form, D') →
      TopIsDefinition form := by
    intro name space form D D' ok stored is
    obtain ⟨n, rfl, -⟩ := resolve_eq_ok ok
    cases is
  refine normalizeType_traced (motive := fun _ v _ form _ => v.Everywhere Plain →
    (∀ members, v = .obj members → lookup processedMark members = none) → TopIsDefinition form)
    ?word ?union ?container ?record ?enumeration ?fixed ?primitive ?reference v ok
  case word =>
    intro space name D form D' ok _ _
    exact word ok
  case reference =>
    intro space members name D form D' _ _ _ ok _ _
    exact word ok
  case union =>
    intro space branches D forms D' _ _ _ _ stored is
    rw [readBack_union] at is
    cases is
  case container =>
    intro space c members v D part D' _ _ _ _ _ stored is
    rw [readBack_container] at is
    cases is
    exact (partRead c part).others processedMark (by decide)
  case record =>
    intro space isError members full aliases items D fields D' _ _ _ _ _ _ _ stored is
    rw [readBack_record] at is
    cases is
    rw [lookup_readBack (keys_recordMembers isError full aliases fields), lookup_recordMembers]
    rfl
  case enumeration =>
    intro space members full aliases symbols items D _ _ _ _ _ _ _ stored is
    rw [readBack_enumeration] at is
    cases is
    rw [lookup_readBack (keys_enumMembers full aliases items _), lookup_enumMembers]
    rfl
  case fixed =>
    intro space members full aliases size D _ _ _ _ _ stored is
    rw [readBack_fixed] at is
    cases is
    rw [lookup_readBack (keys_fixedMembers full aliases size members),
      lookup_fixedMembers full aliases size (fixedAttributes_keys members) (by decide)]
    rfl
  case primitive =>
    intro space members name D _ _ plain unmarked stored is
    unfold primitiveForm at is
    split at is
    · cases is
    · rw [readBack_annotated] at is
      cases is
      rw [lookup_readBack (keys_annotatedMembers name plain.self), annotatedMembers,
        Json.lookup_cons, if_neg (by decide), lookup_attributes (by decide), unmarked members rfl]
      rfl

theorem acceptTop_definition {v : Json} (array : ∀ items, v ≠ .arr items)
    (unmarked : ∀ members, v = .obj members → lookup processedMark members = none) :
    acceptTop v = acceptDefinition v := by
  cases v with
  | arr items => exact absurd rfl (array items)
  | obj members => rw [acceptTop, unmarked members rfl]
  | _ =>
    rw [acceptTop]
    · simp
    · simp

/-- What is made of a schema that has been accepted at the top is accepted there, with the same
names, if its names stand and its defaults fit. -/
def ReacceptsAtTop (v : Json) : Prop :=
  ∀ form names names' after, v.Everywhere Plain → acceptTop v names = .ok ((), names') →
    normalizeType "" v names.known = .ok (form, after) → form.NamesStand "" →
      form.DefaultsFit none → acceptTop form.ordered names = .ok ((), names')

/-- Only the value of a union is an array. -/
theorem ordered_single {form : Form} (single : ∀ branches, form ≠ .union branches) :
    ∀ items, form.ordered ≠ .arr items := by
  have object : ∀ {stored}, form.ordered = .obj stored → ∀ items, form.ordered ≠ .arr items := by
    intro stored is items
    simp [is]
  cases form with
  | union branches => exact absurd rfl (single branches)
  | record isError full aliases fields => exact object (readBack_record isError full aliases fields)
  | enumeration full aliases symbols default =>
    exact object (readBack_enumeration full aliases symbols default)
  | fixed full aliases size attributes =>
    exact object (readBack_fixed full aliases size attributes)
  | array items => exact object (readBack_container .array items)
  | map values => exact object (readBack_container .map values)
  | annotated name attributes => exact object (readBack_annotated name attributes)
  | name n =>
    intro items same
    cases same

theorem reaccepts_definition {v : Json} (array : ∀ items, v ≠ .arr items)
    (unmarked : ∀ members, v = .obj members → lookup processedMark members = none) :
    ReacceptsAtTop v := by
  intro form names names' after plain accepted ok stand fit
  have list := ordered_single (normalizeType_single array ok)
  rw [acceptTop_definition array unmarked] at accepted
  rw [acceptTop_definition list (topIsDefinition_of_made ok plain unmarked)]
  unfold acceptDefinition at accepted ⊢
  rw [Run.bind_of_ok (Run.modify_apply _ names)] at accepted ⊢
  have again := acceptType_again ok .outermost none { names with declared := [] } names' (.text "")
    rfl accepted
  exact again.2 plain stand fit

/-- Each branch starts with the names that normalizing has defined by then. -/
theorem reaccepts_each {branches : List Json} (unmarked : ∀ v ∈ branches, Unmarked v)
    (each : ∀ v ∈ branches, ReacceptsAtTop v) {forms : List Form} {names names' : Names}
    {after : List String} (plain : ∀ v ∈ branches, v.Everywhere Plain)
    (accepted : acceptEach branches names = .ok ((), names'))
    (ok : normalizeBranches "" branches names.known = .ok (forms, after))
    (stand : Form.NamesStandInBranches "" forms) (fit : Form.DefaultsFitInBranches forms) :
    acceptEach (forms.map Form.ordered) names = .ok ((), names') := by
  induction branches generalizing names forms with
  | nil =>
    rw [normalizeBranches] at ok
    cases ok
    rw [acceptEach] at accepted
    cases accepted
    rw [List.map_nil, acceptEach]
    rfl
  | cons branch rest ih =>
    obtain ⟨first, between, others, read, readRest, rfl⟩ := normalizeBranches_cons_eq_ok.1 ok
    obtain ⟨plainHere, plain⟩ := List.forall_mem_cons.1 plain
    obtain ⟨unmarkedHere, unmarked⟩ := List.forall_mem_cons.1 unmarked
    obtain ⟨reaccepts, each⟩ := List.forall_mem_cons.1 each
    rw [acceptEach] at accepted
    obtain ⟨_, middle, here, later⟩ := Run.bind_eq_ok.1 accepted
    obtain ⟨rfl, -⟩ := (top_agrees branch unmarkedHere here).1 first between read
    rw [List.map_cons, acceptEach,
      Run.bind_of_ok (reaccepts first names middle _ plainHere here read stand.1 fit.1)]
    exact ih unmarked each plain later readRest stand.2 fit.2

/-- Every schema without the mark that has been accepted is accepted again in its canonical form, if
its names stand and its defaults fit. -/
theorem acceptTop_again {v : Json} (unmarked : Unmarked v) : ReacceptsAtTop v := by
  induction unmarked with
  | @union branches each ih =>
    intro form names names' after plain accepted ok stand fit
    obtain ⟨-, forms, rfl, made⟩ := normalizeUnion_eq_ok ok
    rw [acceptTop] at accepted
    rw [readBack_union, acceptTop]
    exact reaccepts_each each ih ((Json.everywhere_arr branches).1 plain).2 accepted made stand
      fit.2
  | object h => exact reaccepts_definition (by simp) (fun m is => Json.obj.inj is ▸ h)
  | word array object => exact reaccepts_definition array fun m is => absurd is (object m)

end AvroRegistry.Schema
