import AvroRegistry.Proofs.Compatibility.Reread
import AvroRegistry.Proofs.Compatibility.Verdict
import AvroRegistry.Proofs.Registry.Parsed

/-!
# Checks that return

Whether a check of canonical schemas gives a list of violations, and does not break down, is decided
by the aliases alone. The names of types are compared through the aliases of the reader, which have
to be texts, and its fields are looked up under theirs, which have to be values that can be looked
up: if the aliases of every schema that is a reader under a mode are such, a candidate can be held
against earlier schemas as they parse under that mode (`check_returns`). Everything else that a
check relies on holds of any canonical form, whatever it was made of.

The condition is needed. Outside a namespace an alias that is a list is taken over as it stands, and
the schema is accepted; comparing the name of its type with any other name breaks down
(`check_breaks_down`).
-/

namespace AvroRegistry.Compatibility

open Schema (Form Canonical)
open Json (arranged)

/-! ## One check -/

/-- A check of two canonical schemas gives a result in any order of their members, if the aliases of
the reader can be compared. -/
theorem checkReaderWriter_returns {schemaR schemaW : Json} {r w : Canonical}
    (okR : Schema.canonicalize schemaR = .ok r) (okW : Schema.canonicalize schemaW = .ok w)
    (textual : Textual r.form) (l m : Json.Layout) :
    ∃ violations, checkReaderWriter (arranged l r.value) (arranged m w.value) = .ok violations := by
  have linkedR := linked_of_canonicalize okR
  have linkedW := linked_of_canonicalize okW
  obtain ⟨found, plain⟩ := checkReaderWriter_total linkedR linkedW textual
  rcases checkReaderWriter_arranged l m linkedR linkedW (Canonical.plain okR) (Canonical.plain okW)
    (fun h : False => h.elim) with ⟨b, -, breaks⟩ | ⟨violations, _, returns, -⟩
  · rw [plain] at breaks
    cases breaks
  · exact ⟨violations, returns⟩

/-! ## One reference, and all of them -/

/-- What keeps the references of a mode from breaking a check down: whichever of the two schemas is
a reader has aliases that can be compared. -/
structure Comparable (mode : Mode) (candidate reference : Form) : Prop where
  backward : mode.checksBackward = true → Textual candidate
  forward : mode.checksForward = true → Textual reference

theorem checkDirection_returns {wanted : Bool} {direction : Direction} {index : Nat}
    {reader writer : Json}
    (returns : wanted = true → ∃ violations, checkReaderWriter reader writer = .ok violations) :
    ∃ violations, checkDirection wanted direction index reader writer = .ok violations := by
  unfold checkDirection
  split
  · next checks =>
    obtain ⟨violations, ok⟩ := returns checks
    exact ⟨tag direction index violations, by rw [ok]; rfl⟩
  · exact ⟨[], rfl⟩

section

variable {mode : Mode}

theorem checkReference_returns {candidate reference : Json}
    (backward : mode.checksBackward = true →
      ∃ violations, checkReaderWriter candidate reference = .ok violations)
    (forward : mode.checksForward = true →
      ∃ violations, checkReaderWriter reference candidate = .ok violations) (index : Nat) :
    ∃ violations, checkReference candidate mode index reference = .ok violations := by
  obtain ⟨found, first⟩ := @checkDirection_returns _ .backward index _ _ backward
  obtain ⟨others, second⟩ := @checkDirection_returns _ .forward index _ _ forward
  refine ⟨found ++ others, ?_⟩
  unfold checkReference
  rw [first, second]
  rfl

theorem checkTargets_returns {candidate : Json} {targets : List (Nat × Json)}
    (each : ∀ t ∈ targets, ∃ violations, checkReference candidate mode t.1 t.2 = .ok violations) :
    ∃ violations, checkTargets candidate mode targets = .ok violations := by
  induction targets with
  | nil => exact ⟨[], rfl⟩
  | cons t rest ih =>
    obtain ⟨⟨first, here⟩, later⟩ := List.forall_mem_cons.1 each
    obtain ⟨others, behind⟩ := ih later
    refine ⟨first ++ others, ?_⟩
    unfold checkTargets
    rw [here, behind]
    rfl

/-- The earlier schemas that a mode looks at: all of them or the last one. -/
def consulted {α : Type} (mode : Mode) (references : List α) : List α :=
  if mode.isTransitive then references else references.drop (references.length - 1)

theorem mem_of_consulted {α : Type} {references : List α} {r : α}
    (mem : r ∈ consulted mode references) : r ∈ references := by
  unfold consulted at mem
  split at mem
  · exact mem
  · exact List.mem_of_mem_drop mem

theorem consulted_map {α β : Type} (f : α → β) (references : List α) :
    consulted mode (references.map f) = (consulted mode references).map f := by
  unfold consulted
  split
  · rfl
  · rw [List.length_map, List.map_drop]

/-- What a candidate is held against is what the mode looks at, with its positions. -/
theorem targets_eq_zip (references : List Json) :
    targets mode references =
      (consulted mode (List.range references.length)).zip (consulted mode references) := by
  unfold targets consulted
  split
  · rfl
  · rw [List.zip, List.drop_zipWith, List.length_range]

theorem targets_schemas (references : List Json) :
    (targets mode references).map Prod.snd = consulted mode references := by
  have lengths : (consulted mode references).length ≤
      (consulted mode (List.range references.length)).length := by
    unfold consulted
    split <;> simp
  rw [targets_eq_zip, List.map_snd_zip lengths]

theorem mem_targets {references : List Json} {t : Nat × Json} (mem : t ∈ targets mode references) :
    t.2 ∈ consulted mode references := by
  rw [← targets_schemas]
  exact List.mem_map_of_mem mem

/-- A candidate can be held against earlier schemas if it can be against those that the mode looks
at. -/
theorem checkCompatibility_of_consulted {candidate : Json} {references : List Json}
    (each : ∀ reference ∈ consulted mode references, ∀ index, ∃ violations,
      checkReference candidate mode index reference = .ok violations) :
    ∃ violations, checkCompatibility candidate references mode = .ok violations := by
  unfold checkCompatibility
  split
  · exact ⟨[], rfl⟩
  · exact checkTargets_returns fun t mem => each t.2 (mem_targets mem) t.1

end

section

variable {schema : Json} {candidate : Canonical} {mode : Mode}

/-- A candidate can be held against an earlier schema as it parses. -/
theorem checkReference_parsed (ok : Schema.canonicalize schema = .ok candidate) {earlier : Json}
    {reference : Canonical} (accepted : Schema.canonicalize earlier = .ok reference)
    (comparable : Comparable mode candidate.form reference.form) (index : Nat) :
    ∃ violations, checkReference candidate.value mode index
      (arranged Json.compact reference.value) = .ok violations := by
  -- Without sorting, arranging leaves the candidate as it is.
  have same : arranged Json.spaced candidate.value = candidate.value :=
    Json.arranged_of_unsorted _ rfl _
  refine checkReference_returns (fun checks => ?_) (fun checks => ?_) index
  · rw [← same]
    exact checkReaderWriter_returns ok accepted (comparable.backward checks) _ _
  · rw [← same]
    exact checkReaderWriter_returns accepted ok (comparable.forward checks) _ _

/-- The texts of canonical forms parse. -/
theorem parsed_of_accepted {references : List Canonical}
    (accepted : ∀ r ∈ references, ∃ earlier, Schema.canonicalize earlier = .ok r) :
    (references.mapM fun r => Json.decode r.text) =
      .ok (references.map fun r => arranged Json.compact r.value) := by
  induction references with
  | nil => rfl
  | cons r rest ih =>
    obtain ⟨⟨earlier, ok⟩, later⟩ := List.forall_mem_cons.1 accepted
    rw [List.mapM_cons, Schema.decode_text ok (Canonical.numbersReadBack ok), ih later]
    rfl

/-- A check against earlier schemas as they parse gives a result, under every mode. -/
theorem checkCompatibility_returns (ok : Schema.canonicalize schema = .ok candidate)
    {references : List Canonical}
    (accepted : ∀ r ∈ references, ∃ earlier, Schema.canonicalize earlier = .ok r)
    (comparable : ∀ r ∈ consulted mode references, Comparable mode candidate.form r.form) :
    ∃ violations, checkCompatibility candidate.value
      (references.map fun r => arranged Json.compact r.value) mode = .ok violations := by
  apply checkCompatibility_of_consulted
  rw [consulted_map, List.forall_mem_map]
  intro r consults
  obtain ⟨earlier, canonical⟩ := accepted r (mem_of_consulted consults)
  exact checkReference_parsed ok canonical (comparable r consults)

/-- A canonical form can be held against earlier ones as they parse, under every mode, if the
aliases of those that the mode makes readers can be compared. -/
theorem check_returns (ok : Schema.canonicalize schema = .ok candidate)
    {references : List Canonical}
    (accepted : ∀ r ∈ references, ∃ earlier, Schema.canonicalize earlier = .ok r) (mode : Mode)
    (comparable : ∀ r ∈ consulted mode references, Comparable mode candidate.form r.form) :
    ∃ parsed violations, (references.mapM fun r => Json.decode r.text) = .ok parsed ∧
      checkCompatibility candidate.value parsed mode = .ok violations := by
  obtain ⟨violations, checked⟩ := checkCompatibility_returns ok accepted comparable
  exact ⟨_, violations, parsed_of_accepted accepted, checked⟩

end

/-! ## An alias that is a list -/

/-- The value of a record with one field and one alias. -/
def aliasedValue (name : String) (other : Json) : Json :=
  .obj [("type", .str "record"), ("name", .str name), ("aliases", .arr [other]),
    ("fields", .arr [.obj [("name", .str "x"), ("type", .str "int")]])]

/-- The canonical form of that record, outside a namespace. -/
def aliased (name : String) (other : Json) : Form :=
  .record false name [other] [(⟨.str "x", none, [], none⟩, .name "int")]

/-- The record is brought into that form if the alias stays as it is. -/
theorem normalizeType_aliased {name : String} {other : Json} (filled : name ≠ "")
    (kept : Schema.qualifyAlias (Schema.spaceOf name) other = .ok other) (defined : List String) :
    Schema.normalizeType "" (aliasedValue name other) defined =
      .ok (aliased name other, name :: defined) := by
  have introduced : Schema.introduce "" (.str (Schema.recordKind false))
      [("type", .str "record"), ("name", .str name), ("aliases", .arr [other]),
        ("fields", .arr [.obj [("name", .str "x"), ("type", .str "int")]])] defined =
      .ok ((name, [other]), name :: defined) := by
    rw [Schema.introduce_named rfl filled, show Schema.enclosing "" _ = "" from rfl,
      Schema.qualify_nowhere]
    unfold Schema.typeAliases
    simp only [Json.lookup_cons, String.reduceEq, if_true, if_false]
    dsimp only [Json.elements]
    simp only [Schema.qualifyAliases, kept, Json.sorted_singleton]
    rfl
  have typed : Json.lookup "type" [("type", .str "record"), ("name", .str name),
      ("aliases", .arr [other]),
      ("fields", .arr [.obj [("name", .str "x"), ("type", .str "int")]])] =
      some (.str (Schema.recordKind false)) := rfl
  unfold aliasedValue
  rw [Schema.normalizeType_record "" typed, Run.bind_of_ok introduced]
  rfl

theorem normalize_aliased {name : String} {other : Json} (filled : name ≠ "")
    (kept : Schema.qualifyAlias (Schema.spaceOf name) other = .ok other) :
    Schema.normalize (aliasedValue name other) = .ok (aliased name other) := by
  show (Schema.normalizeType "" (aliasedValue name other) []).map (·.1) = _
  rw [normalizeType_aliased filled kept]
  rfl

theorem textual_aliased (name other : String) :
    Textual (aliased name (.str other)) := by
  constructor
  · intro node mem a listed
    simp only [aliased, Form.nodes_record, List.mem_cons, List.mem_flatMap] at mem
    rcases mem with rfl | ⟨f, rfl | none, inside⟩
    · exact ⟨other, List.mem_singleton.1 listed⟩
    · obtain rfl := List.mem_singleton.1 inside
      cases listed
    · cases none
  · intro isError full aliases fields mem f field a listed
    simp only [aliased, Form.nodes_record, List.mem_cons, List.mem_flatMap] at mem
    rcases mem with same | ⟨f, rfl | none, inside⟩
    · cases same
      obtain rfl := List.mem_singleton.1 field
      cases listed
    · cases List.mem_singleton.1 inside
    · cases none

/-- A renamed record is held against the one it was, in both directions. -/
theorem check_returns_renamed :
    ∃ candidate reference : Canonical,
      Schema.canonicalize (aliasedValue "A" (.str "B")) = .ok candidate ∧
      Schema.canonicalize (aliasedValue "B" (.str "C")) = .ok reference ∧
      (∀ r ∈ consulted .full [reference], Comparable .full candidate.form r.form) ∧
      ∃ parsed violations, ([reference].mapM fun r => Json.decode r.text) = .ok parsed ∧
        checkCompatibility candidate.value parsed .full = .ok violations := by
  have ok : Schema.canonicalize (aliasedValue "A" (.str "B")) =
      .ok ⟨aliased "A" (.str "B"), (aliasedValue "A" (.str "B")).encode Json.spaced⟩ :=
    canonicalize_eq (Schema.submitted_value (Json.readable_of_exact (by decide)) rfl rfl) rfl
      (normalize_aliased (by decide) rfl)
  have accepted : Schema.canonicalize (aliasedValue "B" (.str "C")) =
      .ok ⟨aliased "B" (.str "C"), (aliasedValue "B" (.str "C")).encode Json.spaced⟩ :=
    canonicalize_eq (Schema.submitted_value (Json.readable_of_exact (by decide)) rfl rfl) rfl
      (normalize_aliased (by decide) rfl)
  have comparable : ∀ r ∈ consulted .full
      [(⟨aliased "B" (.str "C"), (aliasedValue "B" (.str "C")).encode Json.spaced⟩ : Canonical)],
      Comparable .full (aliased "A" (.str "B")) r.form := by
    intro r mem
    obtain rfl := List.mem_singleton.1 mem
    exact ⟨fun _ => textual_aliased _ _, fun _ => textual_aliased _ _⟩
  refine ⟨_, _, ok, accepted, comparable, check_returns ok ?_ .full comparable⟩
  intro r mem
  obtain rfl := List.mem_singleton.1 mem
  exact ⟨_, accepted⟩

/-- Both schemas are accepted, the earlier one parses, and the check breaks down. -/
theorem check_breaks_down :
    ∃ candidate reference : Canonical,
      Schema.canonicalize (aliasedValue "A" (.arr [.str "x"])) = .ok candidate ∧
      Schema.canonicalize (boxValue "B" "x" (.str "int")) = .ok reference ∧
      ∃ parsed, ([reference].mapM fun r => Json.decode r.text) = .ok parsed ∧
        checkCompatibility candidate.value parsed .backward = .error .noAttribute := by
  have ok : Schema.canonicalize (aliasedValue "A" (.arr [.str "x"])) =
      .ok ⟨aliased "A" (.arr [.str "x"]),
        (aliasedValue "A" (.arr [.str "x"])).encode Json.spaced⟩ :=
    canonicalize_eq (Schema.submitted_value (Json.readable_of_exact (by decide)) rfl rfl) rfl
      (normalize_aliased (by decide) rfl)
  have accepted : Schema.canonicalize (boxValue "B" "x" (.str "int")) =
      .ok ⟨box "B" "x" (.name "int"), (boxValue "B" "x" (.str "int")).encode Json.spaced⟩ :=
    canonicalize_eq (Schema.submitted_value (Json.readable_of_exact (by decide)) rfl rfl) rfl rfl
  have broke : checkReaderWriter (aliased "A" (.arr [.str "x"])).toJson
      (box "B" "x" (.name "int")).toJson = .error .noAttribute := rfl
  have breaks : checkReaderWriter (aliased "A" (.arr [.str "x"])).toJson
      (arranged Json.compact (box "B" "x" (.name "int")).toJson) = .error .noAttribute := by
    rw [← Json.arranged_of_unsorted Json.spaced rfl (aliased "A" (.arr [.str "x"])).toJson]
    rcases checkReaderWriter_arranged Json.spaced Json.compact (linked_of_canonicalize ok)
      (linked_of_canonicalize accepted) (Canonical.plain ok) (Canonical.plain accepted)
      (fun h : False => h.elim) with ⟨b, breaks, same⟩ | ⟨_, violations, -, returns, -⟩
    · cases broke.symm.trans same
      exact breaks
    · cases broke.symm.trans returns
  refine ⟨_, _, ok, accepted, _, parsed_of_accepted ?_, ?_⟩
  · intro r mem
    obtain rfl := List.mem_singleton.1 mem
    exact ⟨_, accepted⟩
  · show checkTargets (aliased "A" (.arr [.str "x"])).toJson .backward
      [(0, arranged Json.compact (box "B" "x" (.name "int")).toJson)] = _
    unfold checkTargets checkReference checkDirection
    rw [if_pos (show Mode.backward.checksBackward = true from rfl), breaks]
    rfl

end AvroRegistry.Compatibility
