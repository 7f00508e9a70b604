import AvroRegistry.Proofs.Compatibility.Returning
import AvroRegistry.Proofs.Json.UpToOrder
import AvroRegistry.Proofs.Schema.ReadBack

/-!
# Checked as stored

What is stored of a schema is the text of its canonical form. It parses, and gives the form back up
to the order of members, so that two forms have one text exactly if they are equal up to the order
of members. A check of forms therefore comes to the same whichever of them are given as they parse
and whichever as they were made: it breaks down alike, or finds violations of the same kinds, at the
same places, against the same schemas (`stored_as_checked`). The messages are the same, too, if
nothing that they show is an object with its members in another order than the text.

That is needed. The size of a fixed type may be any value, also an object, and where two sizes
differ both are shown, with their members in the order in which each form has them
(`shown_in_two_orders`).
-/

namespace AvroRegistry.Compatibility

open Schema (Form canonicalText)
open Json (arranged Everywhere Plain EqualUpToOrder)

/-! ## Forms that are stored -/

/-- A form that normalizing makes, all of whose values can be written and read again. -/
structure Storable (form : Form) : Prop where
  made : ∃ v, Schema.normalize v = .ok form
  plain : form.toJson.Everywhere Plain

/-- What is brought into canonical form can be stored. -/
theorem storable_of_canonicalize {schema : Json} {c : Schema.Canonical}
    (ok : Schema.canonicalize schema = .ok c) : Storable c.form := by
  obtain ⟨raw, v, given⟩ := Schema.exists_submitted ok
  obtain ⟨-, normalized⟩ := canonicalize_eq_ok given ok
  exact ⟨⟨v, normalized⟩, Schema.Canonical.plain ok⟩

variable {form other : Form}

theorem Storable.linked (storable : Storable form) : Linked form := by
  obtain ⟨v, normalized⟩ := storable.made
  obtain ⟨after, normalized⟩ := normalize_eq normalized
  exact linked_of_built (Schema.normalizeType_built v normalized)

theorem Storable.readable (storable : Storable form) : form.toJson.Everywhere Json.Readable :=
  Json.readable_of_plain storable.plain (Json.readsBack_of_plain storable.plain)

theorem Storable.decode_text (storable : Storable form) :
    Json.decode (canonicalText form.toJson) = .ok (arranged Json.compact form.toJson) :=
  Json.decode_encode Json.compact_standard storable.readable

/-- The text of a form gives it back up to the order of members. -/
theorem Storable.parses_back (storable : Storable form) :
    ∃ stored, Json.decode (canonicalText form.toJson) = .ok stored ∧
      EqualUpToOrder form.toJson stored :=
  ⟨_, storable.decode_text, Json.equalUpToOrder_arranged _ _⟩

/-- Two forms have one text if they are equal up to the order of members. -/
theorem Storable.text_eq_iff (storable : Storable form) (storable' : Storable other) :
    canonicalText form.toJson = canonicalText other.toJson ↔
      EqualUpToOrder form.toJson other.toJson :=
  Json.encode_eq_iff _ rfl Json.compact_standard storable.readable storable'.readable

/-- The values that a form is given as: as it was made, and as its text parses. -/
inductive Given (form : Form) : Json → Prop where
  | made : Given form form.toJson
  | parsed {v : Json} (read : Json.decode (canonicalText form.toJson) = .ok v) : Given form v

theorem Given.arranged (storable : Storable form) {v : Json} (given : Given form v) :
    ∃ l, v = arranged l form.toJson := by
  cases given with
  | made => exact ⟨Json.spaced, (Json.arranged_of_unsorted _ rfl _).symm⟩
  | parsed read =>
    rw [storable.decode_text] at read
    cases read
    exact ⟨Json.compact, rfl⟩

/-! ## Checks that come to the same -/

/-- Two violations are of one kind, at one place, in one direction and against one schema, and they
are one violation if what they show is shown alike. -/
structure Tallies (shown : Prop) (v v' : Violation) : Prop extends Resembles shown v v' where
  direction : v.direction = v'.direction
  reference : v.reference = v'.reference

/-- Two checks break down alike or find violations that tally, one by one. -/
inductive Concurs (shown : Prop) :
    Except Breakdown (List Violation) → Except Breakdown (List Violation) → Prop where
  | breaks (b : Breakdown) : Concurs shown (.error b) (.error b)
  | finds {vs vs' : List Violation} (each : List.Forall₂ (Tallies shown) vs vs') :
      Concurs shown (.ok vs) (.ok vs')

variable {shown : Prop} {x x' y y' : Except Breakdown (List Violation)}

theorem concurs_none : Concurs shown (.ok []) (.ok []) := .finds .nil

/-- Where everything is shown alike, the outcome is the same. -/
theorem Concurs.eq (concurs : Concurs shown x x') (alike : shown) : x = x' := by
  cases concurs with
  | breaks b => rfl
  | finds each =>
    have same := each.imp fun _ _ both => both.exact alike
    rw [List.forall₂_eq_eq_eq] at same
    rw [same]

theorem Concurs.returns (concurs : Concurs shown x x') (returns : ∃ vs, x' = .ok vs) :
    ∃ vs, x = .ok vs := by
  obtain ⟨_, rfl⟩ := returns
  cases concurs with
  | finds => exact ⟨_, rfl⟩

theorem Concurs.append (first : Concurs shown x x') (second : Concurs shown y y') :
    Concurs shown (do return (← x) ++ (← y)) (do return (← x') ++ (← y')) := by
  cases first with
  | breaks b => exact .breaks b
  | finds each =>
    cases second with
    | breaks b => exact .breaks b
    | finds each' => exact .finds (List.rel_append each each')

theorem tallies_tag (direction : Direction) (index : Nat) {vs vs' : List Violation}
    (each : AllResemble shown vs vs') :
    List.Forall₂ (Tallies shown) (tag direction index vs) (tag direction index vs') := by
  unfold tag
  rw [List.forall₂_map_left_iff, List.forall₂_map_right_iff]
  refine each.imp fun v v' resembles => ?_
  exact ⟨⟨resembles.kind, resembles.path, fun alike => by rw [resembles.exact alike]⟩, rfl, rfl⟩

/-! ## Pairs of schemas -/

section

variable {reader writer : Form} {r w : Json}

theorem checkDirection_concurs (storableR : Storable reader) (storableW : Storable writer)
    (givenR : Given reader r) (givenW : Given writer w)
    (legible : shown → (∀ node ∈ reader.nodes, Legible node) ∧ ∀ node ∈ writer.nodes, Legible node)
    (wanted : Bool) (direction : Direction) (index : Nat) :
    Concurs shown (checkDirection wanted direction index r w)
      (checkDirection wanted direction index reader.toJson writer.toJson) := by
  obtain ⟨l, rfl⟩ := givenR.arranged storableR
  obtain ⟨l', rfl⟩ := givenW.arranged storableW
  unfold checkDirection
  split
  · rcases checkReaderWriter_arranged l l' storableR.linked storableW.linked storableR.plain
      storableW.plain legible with ⟨b, left, right⟩ | ⟨vs, vs', left, right, each⟩
    · rw [left, right]
      exact .breaks b
    · rw [left, right]
      exact .finds (tallies_tag direction index each)
  · exact concurs_none

end

section

variable {candidate : Form} {references : List Form} {value : Json} {mode : Mode}

/-- A candidate and an earlier schema are checked alike as they were made and as they parse. -/
theorem checkReference_concurs {reference : Form} {earlier : Json} (storable : Storable candidate)
    (storable' : Storable reference) (given : Given candidate value)
    (given' : Given reference earlier)
    (legible : shown →
      (∀ node ∈ candidate.nodes, Legible node) ∧ ∀ node ∈ reference.nodes, Legible node)
    (index : Nat) :
    Concurs shown (checkReference value mode index earlier)
      (checkReference candidate.toJson mode index reference.toJson) :=
  (checkDirection_concurs storable storable' given given' legible _ _ index).append
    (checkDirection_concurs storable' storable given' given (fun alike => (legible alike).symm) _ _
      index)

theorem checkTargets_concurs {earlier : List Json}
    (each : List.Forall₂ (fun reference v => ∀ index,
      Concurs shown (checkReference value mode index v)
        (checkReference candidate.toJson mode index reference.toJson)) references earlier)
    (positions : List Nat) :
    Concurs shown (checkTargets value mode (positions.zip earlier))
      (checkTargets candidate.toJson mode (positions.zip (references.map Form.toJson))) := by
  induction each generalizing positions with
  | nil =>
    rw [List.map_nil, List.zip_nil_right]
    exact concurs_none
  | cons here _ ih =>
    cases positions with
    | nil => exact concurs_none
    | cons index positions => exact (here index).append (ih positions)

theorem forall₂_consulted {earlier : List Json} (given : List.Forall₂ Given references earlier) :
    List.Forall₂ Given (consulted mode references) (consulted mode earlier) := by
  unfold consulted
  split
  · exact given
  · rw [given.length_eq]
    exact List.forall₂_drop _ given

/-- Everything that messages show of some schemas has its members in the order of a text. -/
def AllLegible (forms : List Form) : Prop := ∀ form ∈ forms, ∀ node ∈ form.nodes, Legible node

theorem checkCompatibility_concurs {earlier : List Json} (storable : Storable candidate)
    (storables : ∀ r ∈ references, Storable r) (given : Given candidate value)
    (givens : List.Forall₂ Given references earlier) :
    Concurs (AllLegible (candidate :: consulted mode references))
      (checkCompatibility value earlier mode)
      (checkCompatibility candidate.toJson (references.map Form.toJson) mode) := by
  unfold checkCompatibility
  split
  · exact concurs_none
  · rw [targets_eq_zip, targets_eq_zip, consulted_map, List.length_map, givens.length_eq]
    refine checkTargets_concurs ?_ _
    -- Each schema that is looked at is storable, and is legible if all of them are.
    have looked := (List.forall₂_and_left _ _).2
      ⟨fun r (consults : r ∈ consulted mode references) => consults, forall₂_consulted givens⟩
    refine looked.imp fun r v ⟨consults, given'⟩ index => ?_
    refine checkReference_concurs storable (storables r (mem_of_consulted consults)) given given'
      (fun alike => ⟨alike candidate List.mem_cons_self, ?_⟩) index
    exact alike r (List.mem_cons_of_mem _ consults)

theorem checkCompatibility_made (storable : Storable candidate)
    (storables : ∀ r ∈ references, Storable r)
    (comparable : ∀ r ∈ consulted mode references, Comparable mode candidate r) :
    ∃ violations,
      checkCompatibility candidate.toJson (references.map Form.toJson) mode = .ok violations := by
  apply checkCompatibility_of_consulted
  rw [consulted_map, List.forall_mem_map]
  intro r consults
  have linked := (storables r (mem_of_consulted consults)).linked
  have texts := comparable r consults
  exact checkReference_returns
    (fun checks => checkReaderWriter_total storable.linked linked (texts.backward checks))
    (fun checks => checkReaderWriter_total linked storable.linked (texts.forward checks))

/-- Stored forms are given back up to the order of members, so that they have one text exactly if
they are equal up to that, and a check of them comes to the same whichever of them are given as they
were made and whichever as they parse. The outcome is one and the same if what messages show has its
members in order, and it is a list if the aliases of the readers can be compared. -/
theorem stored_as_checked (storable : ∀ form ∈ candidate :: references, Storable form)
    (mode : Mode) :
    (∀ form ∈ candidate :: references, ∃ stored,
      Json.decode (canonicalText form.toJson) = .ok stored ∧
        EqualUpToOrder form.toJson stored) ∧
    (∀ form ∈ candidate :: references, ∀ other ∈ candidate :: references,
      canonicalText form.toJson = canonicalText other.toJson ↔
        EqualUpToOrder form.toJson other.toJson) ∧
    ∀ value earlier, Given candidate value → List.Forall₂ Given references earlier →
      Concurs (AllLegible (candidate :: consulted mode references))
        (checkCompatibility value earlier mode)
        (checkCompatibility candidate.toJson (references.map Form.toJson) mode) ∧
      (AllLegible (candidate :: consulted mode references) →
        checkCompatibility value earlier mode =
          checkCompatibility candidate.toJson (references.map Form.toJson) mode) ∧
      ((∀ r ∈ consulted mode references, Comparable mode candidate r) →
        ∃ violations, checkCompatibility value earlier mode = .ok violations) := by
  obtain ⟨first, others⟩ := List.forall_mem_cons.1 storable
  refine ⟨fun form mem => (storable form mem).parses_back,
    fun form mem other mem' => (storable form mem).text_eq_iff (storable other mem'), ?_⟩
  intro value earlier given givens
  have concurs : Concurs (AllLegible (candidate :: consulted mode references))
      (checkCompatibility value earlier mode)
      (checkCompatibility candidate.toJson (references.map Form.toJson) mode) :=
    checkCompatibility_concurs first others given givens
  exact ⟨concurs, concurs.eq, fun comparable =>
    concurs.returns (checkCompatibility_made first others comparable)⟩

end

/-! ## A size that is an object -/

/-- The value of a fixed type. -/
def sizedValue (size : Json) : Json :=
  .obj [("type", .str "fixed"), ("name", .str "F"), ("size", size)]

/-- The canonical form of that type. -/
def sized (size : Json) : Form := .fixed "F" [] size []

/-- Two sizes with the same members in two orders. -/
def sizeAsMade : Json := .obj [("b", .int 1), ("a", .int 2)]

def sizeAsParsed : Json := .obj [("a", .int 2), ("b", .int 1)]

theorem canonicalize_sized {size : Json} (mem : size ∈ [.int 4, .int 8, sizeAsMade]) :
    Schema.canonicalize (sizedValue size) =
      .ok ⟨sized size, (sizedValue size).encode Json.spaced⟩ := by
  have exact : ∀ w ∈ (sizedValue size).parts, w.Plain ∧ w.kindName ≠ "float" := by
    revert size
    decide
  have accepted : Schema.accept (sizedValue size) = .ok () := rfl
  exact canonicalize_eq (Schema.submitted_value (Json.readable_of_exact exact) rfl rfl) accepted rfl

theorem ordered_sized (size : Json) :
    arranged Json.compact (sized size).toJson =
      .obj [("name", .str "F"), ("size", arranged Json.compact size), ("type", .str "fixed")] := by
  have perm : [("type", Json.str "fixed"), ("name", .str "F"), ("size", size)].Perm
      [("name", .str "F"), ("size", size), ("type", .str "fixed")] :=
    (List.perm_append_singleton _ [("name", .str "F"), ("size", size)]).symm
  show arranged Json.compact (sizedValue size) = _
  rw [sizedValue, Schema.arranged_readBack, Schema.readBack_eq perm (by simp [Json.keys]) (by simp)]
  rfl

theorem ordered_sizeAsMade : arranged Json.compact sizeAsMade = sizeAsParsed := by
  have perm : [("b", Json.int 1), ("a", .int 2)].Perm [("a", .int 2), ("b", .int 1)] := .swap _ _ []
  rw [sizeAsMade, Schema.arranged_readBack, Schema.readBack_eq perm (by decide) (by simp)]
  rfl

/-- Two fixed types of plain sizes are checked alike as they were made and as they parse. -/
theorem sized_stored_as_checked :
    (∀ form ∈ [sized (.int 4), sized (.int 8)], Storable form) ∧
      ∃ stored, Json.decode (canonicalText (sized (.int 8)).toJson) = .ok stored ∧
        EqualUpToOrder (sized (.int 8)).toJson stored ∧
        checkCompatibility (sized (.int 4)).toJson [stored] .backward =
          checkCompatibility (sized (.int 4)).toJson [(sized (.int 8)).toJson] .backward := by
  have storable : ∀ form ∈ [sized (.int 4), sized (.int 8)], Storable form := by
    rw [List.forall_mem_cons, List.forall_mem_singleton]
    exact ⟨storable_of_canonicalize (canonicalize_sized (by simp)),
      storable_of_canonicalize (canonicalize_sized (by simp))⟩
  have legible : AllLegible [sized (.int 4), sized (.int 8)] := by
    rw [AllLegible, List.forall_mem_cons, List.forall_mem_singleton]
    constructor
    all_goals
      intro node inside v shown
      obtain rfl := List.mem_singleton.1 inside
      obtain rfl := List.mem_singleton.1 shown
      rfl
  obtain ⟨givenBack, -, checked⟩ := stored_as_checked storable .backward
  obtain ⟨stored, read, same⟩ := givenBack (sized (.int 8)) (by simp)
  obtain ⟨-, equal, -⟩ := checked _ [stored] .made (.cons (.parsed read) .nil)
  exact ⟨storable, stored, read, same, equal legible⟩

/-- Both schemas are accepted, and what is found depends on whether the earlier one is given as it
was made or as it parses. -/
theorem shown_in_two_orders :
    ∃ candidate reference stored,
      Schema.canonicalize (sizedValue (.int 4)) = .ok candidate ∧
      Schema.canonicalize (sizedValue sizeAsMade) = .ok reference ∧
      Json.decode reference.text = .ok stored ∧
      (checkCompatibility candidate.value [reference.value] .backward).map
        (List.map Violation.line) = .ok ["[BACKWARD] FIXED_SIZE_MISMATCH: /size - " ++
          "Expected size \x7b'b': 1, 'a': 2\x7d, found 4"] ∧
      (checkCompatibility candidate.value [stored] .backward).map
        (List.map Violation.line) = .ok ["[BACKWARD] FIXED_SIZE_MISMATCH: /size - " ++
          "Expected size \x7b'a': 2, 'b': 1\x7d, found 4"] ∧
      checkCompatibility candidate.value [stored] .backward ≠
        checkCompatibility candidate.value [reference.value] .backward := by
  have accepted : Schema.canonicalize (sizedValue sizeAsMade) =
      .ok ⟨sized sizeAsMade, (sizedValue sizeAsMade).encode Json.spaced⟩ :=
    canonicalize_sized (by simp)
  have read := (storable_of_canonicalize accepted).decode_text
  rw [ordered_sized, ordered_sizeAsMade] at read
  refine ⟨_, _, _, canonicalize_sized (by simp), accepted, read, rfl, rfl, fun same => ?_⟩
  have lines := congrArg (Except.map (List.map Violation.line)) same
  exact absurd (Except.ok.inj lines) (by decide)

end AvroRegistry.Compatibility
