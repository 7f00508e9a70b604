import AvroRegistry.Proofs.Schema.Walks

/-!
# What accepting gives

When a type is accepted, its parts are, one after the other, and the names change only where a named
type is defined. Most rules look at a value and leave the names alone; they are `Quiet`, and drop out
of every equation below.
-/

namespace AvroRegistry.Schema

/-! ## Steps that leave the names alone -/

/-- A step ends with the names it began with. -/
def Quiet {α : Type} (x : Reading α) : Prop := ∀ a names names', x names = .ok (a, names') →
  names' = names

section

variable {α β : Type}

theorem quiet_pure (a : α) : Quiet (pure a) := by
  intro a' names names' ok
  cases ok
  rfl

theorem quiet_refuse (d : Diagnosis) : Quiet (refuse d : Reading α) := by
  intro a names names' ok
  cases ok

theorem quiet_collapse (b : Breakdown) : Quiet (collapse b : Reading α) := by
  intro a names names' ok
  cases ok

theorem quiet_bind {x : Reading α} {f : α → Reading β} (first : Quiet x)
    (second : ∀ a, Quiet (f a)) : Quiet (x >>= f) := by
  intro b names names' ok
  obtain ⟨a, between, ok₁, ok₂⟩ := Run.bind_eq_ok.1 ok
  rw [second a b between names' ok₂, first a names between ok₁]

theorem quiet_require (condition : Bool) (d : Diagnosis) : Quiet (require condition d) := by
  unfold require
  split
  · exact quiet_pure ()
  · exact quiet_refuse d

theorem quiet_member (key : String) (members : List (String × Json)) :
    Quiet (member key members) := by
  unfold member
  split
  · exact quiet_pure _
  · exact quiet_collapse _

theorem quiet_requireDefault (default : Option Json) (type : Json)
    (fits : Json → Except Breakdown Bool) : Quiet (requireDefault default type fits) := by
  unfold requireDefault
  split
  · exact quiet_pure ()
  · split
    · exact quiet_collapse _
    · exact quiet_pure ()
    · exact quiet_refuse _

theorem quiet_requireBranchDefault (default : Option Json) (branches : List Json) :
    Quiet (requireBranchDefault default branches) := by
  unfold requireBranchDefault
  split
  · exact quiet_pure ()
  · split
    · exact quiet_collapse _
    · exact quiet_pure ()
    · exact quiet_refuse _

theorem quiet_requireFit (precision : Json) (digits : Int) (members : List (String × Json)) :
    Quiet (requireFit precision digits members) := by
  refine quiet_bind (quiet_member _ _) fun size => ?_
  split
  · exact quiet_collapse _
  · exact quiet_require _ _

theorem quiet_checkPrecision (type precision : Json) (members : List (String × Json)) :
    Quiet (checkPrecision type precision members) := by
  unfold checkPrecision
  split
  · split
    · exact quiet_refuse _
    · refine quiet_bind (quiet_require _ _) fun _ => ?_
      split
      · exact quiet_requireFit _ _ _
      · exact quiet_pure _
  · exact quiet_pure ()

theorem quiet_checkScale (scale : Json) : Quiet (checkScale scale) := by
  unfold checkScale
  split
  · split
    · exact quiet_refuse _
    · exact quiet_require _ _
  · exact quiet_pure ()

theorem quiet_checkDecimal (type : Json) (members : List (String × Json)) :
    Quiet (checkDecimal type members) := by
  unfold checkDecimal
  split
  · refine quiet_bind (quiet_checkScale _) fun _ => ?_
    refine quiet_bind (quiet_checkPrecision _ _ _) fun _ => ?_
    split
    · exact quiet_require _ _
    · exact quiet_pure ()
  · exact quiet_pure ()

theorem quiet_checkSymbols (members : List (String × Json)) : Quiet (checkSymbols members) := by
  refine quiet_bind (quiet_member _ _) fun symbols => ?_
  split
  · exact quiet_collapse _
  · refine quiet_bind (quiet_require _ _) fun _ => quiet_bind (quiet_require _ _) fun _ => ?_
    split
    · exact quiet_pure ()
    · split
      · exact quiet_collapse _
      · exact quiet_require _ _

theorem quiet_checkField (members : List (String × Json)) : Quiet (checkField members) := by
  unfold checkField
  split
  · exact quiet_refuse _
  · split
    · exact quiet_refuse _
    · split
      · exact quiet_pure ()
      · exact quiet_pure ()
      · exact quiet_refuse _

/-- After a quiet step a sequence goes on from the same names. -/
theorem bind_of_quiet {x : Reading α} {f : α → Reading β} {names names' : Names} {b : β}
    (quiet : Quiet x) (ok : (x >>= f) names = .ok (b, names')) :
    ∃ a, x names = .ok (a, names) ∧ f a names = .ok (b, names') := by
  obtain ⟨a, between, first, second⟩ := Run.bind_eq_ok.1 ok
  obtain rfl := quiet a names between first
  exact ⟨a, first, second⟩

end

/-! ## Names that are defined -/

/-- The names after a definition has begun: it is declared and known. -/
def Names.define (names : Names) (full : String) : Names :=
  ⟨full :: names.declared, full :: names.known⟩

theorem declare_eq_ok {full : String} {names names' : Names} {u : Unit}
    (ok : declare full names = .ok (u, names')) :
    full ∉ names.declared ∧ names' = { names with declared := full :: names.declared } := by
  unfold declare at ok
  rw [Run.bind_of_ok (Run.get_apply names)] at ok
  obtain ⟨_, free, ok⟩ := bind_of_quiet (quiet_require _ _) ok
  cases ok
  refine ⟨fun found => ?_, rfl⟩
  rw [List.contains_iff_mem.2 found] at free
  cases free

theorem learn_apply (full : String) (names : Names) :
    learn full names = .ok ((), { names with known := full :: names.known }) := rfl

/-! ## Success, shape by shape -/

section

variable {outer : Space} {default : Option Json} {members : List (String × Json)}
  {names names' : Names}

theorem acceptUnder_eq_ok {key : String}
    (ok : acceptUnder key outer default members names = .ok ((), names')) :
    ∃ v, Json.lookup key members = some v ∧
      acceptType outer default v names = .ok ((), names') := by
  rw [acceptUnder_eq] at ok
  cases found : Json.lookup key members with
  | none =>
    rw [found] at ok
    cases ok
  | some v =>
    rw [found] at ok
    exact ⟨v, rfl, ok⟩

theorem acceptContainer_eq_ok {container : Container}
    (typed : Json.lookup "type" members = some (.str container.word))
    (ok : acceptType outer default (.obj members) names = .ok ((), names')) :
    ∃ v, Json.lookup container.key members = some v ∧
      acceptType outer none v names = .ok ((), names') := by
  rw [acceptType_container outer default typed] at ok
  obtain ⟨_, -, ok⟩ := bind_of_quiet (quiet_checkDecimal _ _) ok
  obtain ⟨_, after, part, rest⟩ := Run.bind_eq_ok.1 ok
  obtain rfl := quiet_requireDefault _ _ _ _ _ _ rest
  exact acceptUnder_eq_ok part

theorem acceptRecord_eq_ok {isError : Bool}
    (typed : Json.lookup "type" members = some (.str (recordKind isError)))
    (ok : acceptType outer default (.obj members) names = .ok ((), names')) :
    ∃ full inner between, fullNameOf outer members names = .ok ((full, inner), between) ∧
      full ∉ between.declared ∧
      acceptFieldsOf inner members (between.define full) = .ok ((), names') := by
  rw [acceptType_record outer default typed] at ok
  obtain ⟨_, -, ok⟩ := bind_of_quiet (quiet_checkDecimal _ _) ok
  obtain ⟨⟨full, inner⟩, between, named, ok⟩ := Run.bind_eq_ok.1 ok
  obtain ⟨_, _, declared, ok⟩ := Run.bind_eq_ok.1 ok
  obtain ⟨free, rfl⟩ := declare_eq_ok declared
  obtain ⟨_, -, ok⟩ := bind_of_quiet (quiet_requireDefault _ _ _) ok
  rw [Run.bind_of_ok (learn_apply full _)] at ok
  exact ⟨full, inner, between, named, free, ok⟩

theorem acceptEnum_eq_ok (typed : Json.lookup "type" members = some (.str "enum"))
    (ok : acceptType outer default (.obj members) names = .ok ((), names')) :
    ∃ full inner between, fullNameOf outer members names = .ok ((full, inner), between) ∧
      full ∉ between.declared ∧ names' = between.define full := by
  rw [acceptType_enumeration outer default typed] at ok
  obtain ⟨_, -, ok⟩ := bind_of_quiet (quiet_checkDecimal _ _) ok
  obtain ⟨⟨full, inner⟩, between, named, ok⟩ := Run.bind_eq_ok.1 ok
  obtain ⟨_, _, declared, ok⟩ := Run.bind_eq_ok.1 ok
  obtain ⟨free, rfl⟩ := declare_eq_ok declared
  obtain ⟨_, -, ok⟩ := bind_of_quiet (quiet_checkSymbols _) ok
  obtain ⟨_, -, ok⟩ := bind_of_quiet (quiet_requireDefault _ _ _) ok
  cases ok
  exact ⟨full, inner, between, named, free, rfl⟩

theorem acceptFixed_eq_ok (typed : Json.lookup "type" members = some (.str "fixed"))
    (ok : acceptType outer default (.obj members) names = .ok ((), names')) :
    ∃ full inner between, fullNameOf outer members names = .ok ((full, inner), between) ∧
      full ∉ between.declared ∧ names' = between.define full := by
  rw [acceptType_fixed outer default typed] at ok
  obtain ⟨_, -, ok⟩ := bind_of_quiet (quiet_checkDecimal _ _) ok
  obtain ⟨⟨full, inner⟩, between, named, ok⟩ := Run.bind_eq_ok.1 ok
  obtain ⟨_, _, declared, ok⟩ := Run.bind_eq_ok.1 ok
  obtain ⟨free, rfl⟩ := declare_eq_ok declared
  obtain ⟨_, -, ok⟩ := bind_of_quiet (quiet_requireDefault _ _ _) ok
  rw [Run.bind_of_ok (learn_apply full _)] at ok
  change ((fun _ => ()) <$> member "size" members) (between.define full) = _ at ok
  obtain ⟨_, sized, -⟩ := Run.map_eq_ok.1 ok
  obtain rfl := quiet_member _ _ _ _ _ sized
  exact ⟨full, inner, between, named, free, rfl⟩

theorem acceptOther_eq_ok {type : Json} (typed : Json.lookup "type" members = some type)
    (plain : isConstructor type = false)
    (ok : acceptType outer default (.obj members) names = .ok ((), names')) :
    (∃ p, type = .str p ∧ isPrimitive p = true) ∧ names' = names := by
  rw [acceptType_other outer default typed plain] at ok
  obtain ⟨_, -, ok⟩ := bind_of_quiet (quiet_checkDecimal _ _) ok
  cases type with
  | str p =>
    unfold acceptPrimitive at ok
    dsimp only at ok
    split at ok
    · next primitive => exact ⟨⟨p, rfl, primitive⟩, quiet_requireDefault _ _ _ _ _ _ ok⟩
    · cases ok
  | _ =>
    unfold acceptPrimitive at ok
    dsimp only at ok
    split at ok
    all_goals cases ok

theorem acceptWord_eq_ok {name : String}
    (ok : acceptType outer default (.str name) names = .ok ((), names')) :
    (isPrimitive name = true ∨ ∃ full, referent outer name = .ok full ∧ full ∈ names.known) ∧
      names' = names := by
  rw [acceptType_str] at ok
  unfold acceptWord at ok
  dsimp only at ok
  split at ok
  · next primitive => exact ⟨.inl primitive, quiet_requireDefault _ _ _ _ _ _ ok⟩
  · cases meant : referent outer name with
    | error b =>
      rw [meant] at ok
      cases ok
    | ok full =>
      rw [meant] at ok
      dsimp only at ok
      rw [Run.bind_of_ok (Run.get_apply names)] at ok
      unfold require at ok
      split at ok
      · next found =>
        cases ok
        exact ⟨.inr ⟨full, rfl, List.contains_iff_mem.1 found⟩, rfl⟩
      · cases ok

theorem acceptUnion_eq_ok {branches : List Json}
    (ok : acceptType outer default (.arr branches) names = .ok ((), names')) :
    acceptBranches outer branches names = .ok ((), names') := by
  rw [acceptType] at ok
  obtain ⟨_, after, each, rest⟩ := Run.bind_eq_ok.1 ok
  obtain rfl := quiet_requireBranchDefault _ _ _ _ _ rest
  exact each

theorem acceptFields_cons_eq_ok {rest : List Json}
    (ok : acceptFields outer (.obj members :: rest) names = .ok ((), names')) :
    ∃ v default between, Json.lookup "type" members = some v ∧
      acceptType outer default v names = .ok ((), between) ∧
      acceptFields outer rest between = .ok ((), names') := by
  rw [acceptFields] at ok
  obtain ⟨_, -, ok⟩ := bind_of_quiet (quiet_checkField _) ok
  obtain ⟨_, between, first, others⟩ := Run.bind_eq_ok.1 ok
  obtain ⟨v, typed, first⟩ := acceptUnder_eq_ok first
  exact ⟨v, _, between, typed, first, others⟩

end

end AvroRegistry.Schema
