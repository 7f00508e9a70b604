import AvroRegistry.Proofs.Schema.ReadBack
import AvroRegistry.Proofs.Schema.Regular

/-!
# Checks of values read back

Accepting a type checks its attributes as a decimal and the default of the field it stands in. What
is read back passes every check that was passed before: the rules for decimals look at no more than
is kept (`grants_checkDecimal`), and whether a default fits does not depend on the order of its
members (`fits_again`, `fitsSome_arranged`). A default fits a primitive type by its name if it fits
the type given as an object, which is stricter (`fitsPrimitive_lenient`).
-/

namespace AvroRegistry.Schema

open Json (lookup arranged compact)

/-! ## Steps that let the same things through -/

section

variable {α β : Type}

/-- Whatever a step lets through, another one does, with the same result and the same names. -/
def Grants (x y : Reading α) : Prop := ∀ names r, x names = .ok r → y names = .ok r

theorem grants_refl (x : Reading α) : Grants x x := fun _ _ ok => ok

theorem grants_refuse (d : Diagnosis) (y : Reading α) : Grants (refuse d) y := by
  intro names r ok
  cases ok

theorem grants_collapse (b : Breakdown) (y : Reading α) : Grants (collapse b) y := by
  intro names r ok
  cases ok

theorem Grants.bind {x x' : Reading α} {f f' : α → Reading β} (first : Grants x x')
    (second : ∀ a, Grants (f a) (f' a)) : Grants (x >>= f) (x' >>= f') := by
  rintro names ⟨b, names'⟩ ok
  obtain ⟨a, between, one, two⟩ := Run.bind_eq_ok.1 ok
  rw [Run.bind_of_ok (first names _ one)]
  exact second a between _ two

theorem grants_require {condition condition' : Bool} (d d' : Diagnosis)
    (holds : condition = true → condition' = true) :
    Grants (require condition d) (require condition' d') := by
  rintro names ⟨u, names'⟩ ok
  have first := require_eq_ok ok
  unfold require at ok ⊢
  rw [if_pos first] at ok
  rw [if_pos (holds first)]
  exact ok

end

/-! ## Values read back -/

theorem asInt?_arranged (v : Json) : (arranged compact v).asInt? = v.asInt? := by
  cases v <;> rfl

theorem truthy_arranged (v : Json) : (arranged compact v).truthy = v.truthy := by
  cases v with
  | arr items =>
    rw [Json.arranged_arr]
    cases items <;> rfl
  | obj members =>
    rw [arranged_readBack]
    show (!(readBack members).isEmpty) = !members.isEmpty
    rw [(readBack_perm members).isEmpty_eq]
    cases members <;> rfl
  | _ => rfl

theorem digitsThatFit_arranged (v : Json) :
    digitsThatFit (arranged compact v) = digitsThatFit v := by
  cases v <;> rfl

/-! ## Decimals -/

/-- The keys at which the rules for decimals look. -/
def decimalKeys : List String := ["logicalType", "scale", "precision", "size"]

theorem grants_checkScale (scale : Json) :
    Grants (checkScale scale) (checkScale (arranged compact scale)) := by
  unfold checkScale
  rw [truthy_arranged, asInt?_arranged]
  split
  · split
    · exact grants_refuse _ _
    · exact grants_require _ _ id
  · exact grants_refl _

section

variable {members stored : List (String × Json)}
  (read : ∀ key ∈ decimalKeys, lookup key stored = (lookup key members).map (arranged compact))

include read

theorem grants_requireFit (precision : Json) (digits : Int) :
    Grants (requireFit precision digits members)
      (requireFit (arranged compact precision) digits stored) := by
  unfold requireFit member
  rw [read "size" (by decide)]
  cases lookup "size" members with
  | none => exact grants_collapse _ _
  | some size =>
    show Grants (pure size >>= _) (pure (arranged compact size) >>= _)
    rw [pure_bind, pure_bind, digitsThatFit_arranged]
    split
    · exact grants_collapse _ _
    · exact grants_require _ _ id

theorem grants_checkPrecision (type precision : Json) :
    Grants (checkPrecision type precision members)
      (checkPrecision type (arranged compact precision) stored) := by
  unfold checkPrecision
  rw [truthy_arranged, asInt?_arranged]
  split
  · split
    · exact grants_refuse _ _
    · refine (grants_require _ _ id).bind fun _ => ?_
      split
      · exact grants_requireFit read precision _
      · exact grants_refl _
  · exact grants_refl _

theorem getD_read {key : String} (mem : key ∈ decimalKeys) :
    (lookup key stored).getD .null = arranged compact ((lookup key members).getD .null) := by
  rw [read key mem]
  cases lookup key members <;> rfl

/-- The rules for decimals look at nothing that is lost. -/
theorem grants_checkDecimal (type : Json) :
    Grants (checkDecimal type members) (checkDecimal type stored) := by
  unfold checkDecimal
  rw [read "logicalType" (by decide), getD_read read (by decide : "scale" ∈ decimalKeys),
    getD_read read (by decide : "precision" ∈ decimalKeys)]
  cases lookup "logicalType" members with
  | none => exact grants_refl _
  | some kind =>
    cases kind with
    | str word =>
      rw [Option.map_some, Json.arranged_of_isKey compact rfl]
      split
      · refine (grants_checkScale _).bind fun _ => ?_
        refine (grants_checkPrecision read type _).bind fun _ => ?_
        rw [truthy_arranged, truthy_arranged, asInt?_arranged, asInt?_arranged]
        split
        · exact grants_require _ _ id
        · exact grants_refl _
      · exact grants_refl _
    | _ => exact grants_refl _

end

theorem checkDecimal_unmarked {members : List (String × Json)} (type : Json)
    (absent : lookup "logicalType" members = none) (names : Names) :
    checkDecimal type members names = .ok ((), names) := by
  unfold checkDecimal
  rw [absent]
  rfl

/-! ## Defaults -/

section

variable {names names' : Names} {u : Unit}

theorem requireDefault_eq_ok {default : Option Json} {type : Json}
    {fits : Json → Except Breakdown Bool}
    (ok : requireDefault default type fits names = .ok (u, names')) :
    ∀ d, default = some d → fits d = .ok true := by
  rintro d rfl
  unfold requireDefault at ok
  dsimp only at ok
  cases found : fits d with
  | error b =>
    rw [found] at ok
    cases ok
  | ok fitting =>
    rw [found] at ok
    cases fitting with
    | true => rfl
    | false => cases ok

theorem requireDefault_fits {default : Option Json} (type : Json)
    {fits : Json → Except Breakdown Bool} (each : ∀ d, default = some d → fits d = .ok true)
    (names : Names) : requireDefault default type fits names = .ok ((), names) := by
  unfold requireDefault
  cases default with
  | none => rfl
  | some d =>
    dsimp only
    rw [each d rfl]
    rfl

/-- A default that fits is read back as one that does. -/
theorem fits_again {default : Option Json} {fits fits' : Json → Except Breakdown Bool}
    (keeps : ∀ d, fits d = .ok true → fits' (arranged compact d) = .ok true)
    (each : ∀ d, default = some d → fits d = .ok true) :
    ∀ d, default.map (arranged compact) = some d → fits' d = .ok true := by
  intro d is
  obtain ⟨d', given, rfl⟩ := Option.map_eq_some_iff.1 is
  exact keeps d' (each d' given)

theorem requireBranchDefault_fits {default : Option Json} {branches : List Json}
    (each : ∀ d, default = some d → fitsSome d branches = .ok true) (names : Names) :
    requireBranchDefault default branches names = .ok ((), names) := by
  unfold requireBranchDefault
  cases default with
  | none => rfl
  | some d =>
    dsimp only
    rw [each d rfl]
    rfl

end

theorem isObject_arranged (v : Json) (is : isObject v = .ok true) :
    isObject (arranged compact v) = .ok true := by
  cases v <;> first | rfl | exact is

theorem Container.fits_arranged (c : Container) (v : Json) (is : c.fits v = .ok true) :
    c.fits (arranged compact v) = .ok true := by
  cases c with
  | array => cases v <;> first | rfl | exact is
  | map => exact isObject_arranged v is

theorem isText_arranged (v : Json) (is : isText v = .ok true) :
    isText (arranged compact v) = .ok true := by
  cases v <;> first | rfl | exact is

theorem fitsPrimitive_read (strict : Bool) (name : String) (v : Json) :
    fitsPrimitive strict name (arranged compact v) = fitsPrimitive strict name v := by
  cases v <;> rfl

theorem fitsPrimitive_arranged (strict : Bool) (name : String) (v : Json)
    (fits : fitsPrimitive strict name v = .ok true) :
    fitsPrimitive strict name (arranged compact v) = .ok true :=
  (fitsPrimitive_read strict name v).trans fits

/-- A default that is written as its type asks for fits it anyway. -/
theorem fitsPrimitive_lenient {name : String} {v : Json}
    (fits : fitsPrimitive true name v = .ok true) : fitsPrimitive false name v = .ok true := by
  unfold fitsPrimitive at fits ⊢
  rw [if_pos (rfl : true = true)] at fits
  rw [if_neg Bool.false_ne_true]
  split_ifs at fits ⊢
  · exact fits
  · exact fits
  · exact fits
  · exact fits
  · cases v with
    | float x => rfl
    | _ => cases fits

theorem fitsBranch_arranged (default branch : Json) :
    fitsBranch (arranged compact default) (arranged compact branch) =
      fitsBranch default branch := by
  cases branch with
  | str name =>
    show fitsBranch (arranged compact default) (.str name) = _
    unfold fitsBranch
    dsimp only
    rw [fitsPrimitive_read]
  | _ => rfl

theorem fitsSome_arranged (default : Json) (branches : List Json) :
    fitsSome (arranged compact default) (branches.map (arranged compact)) =
      fitsSome default branches := by
  induction branches with
  | nil => rfl
  | cons branch rest ih =>
    rw [List.map_cons, fitsSome, fitsSome, fitsBranch_arranged, ih]

/-! ## What accepting has looked at -/

section

variable {outer : Space} {default : Option Json} {members : List (String × Json)}
  {names names' : Names}

theorem acceptContainer_default {container : Container}
    (typed : lookup "type" members = some (.str container.word))
    (ok : acceptType outer default (.obj members) names = .ok ((), names')) :
    ∀ d, default = some d → container.fits d = .ok true := by
  rw [acceptType_container outer default typed] at ok
  obtain ⟨_, -, ok⟩ := bind_of_quiet (quiet_checkDecimal _ _) ok
  obtain ⟨_, _, -, rest⟩ := Run.bind_eq_ok.1 ok
  exact requireDefault_eq_ok rest

theorem acceptRecord_default {isError : Bool}
    (typed : lookup "type" members = some (.str (recordKind isError)))
    (ok : acceptType outer default (.obj members) names = .ok ((), names')) :
    ∀ d, default = some d → isObject d = .ok true := by
  rw [acceptType_record outer default typed] at ok
  obtain ⟨_, -, ok⟩ := bind_of_quiet (quiet_checkDecimal _ _) ok
  obtain ⟨_, _, -, ok⟩ := Run.bind_eq_ok.1 ok
  obtain ⟨_, _, -, ok⟩ := Run.bind_eq_ok.1 ok
  obtain ⟨_, rest, -⟩ := bind_of_quiet (quiet_requireDefault _ _ _) ok
  exact requireDefault_eq_ok rest

/-- The rules for symbols and the one for a default have been kept. -/
theorem acceptEnum_checked (typed : lookup "type" members = some (.str "enum"))
    (ok : acceptType outer default (.obj members) names = .ok ((), names')) :
    (∃ at_, checkSymbols members at_ = .ok ((), at_)) ∧
      ∀ d, default = some d → isText d = .ok true := by
  rw [acceptType_enumeration outer default typed] at ok
  obtain ⟨_, -, ok⟩ := bind_of_quiet (quiet_checkDecimal _ _) ok
  obtain ⟨_, _, -, ok⟩ := Run.bind_eq_ok.1 ok
  obtain ⟨_, at_, -, ok⟩ := Run.bind_eq_ok.1 ok
  obtain ⟨_, symbols, ok⟩ := bind_of_quiet (quiet_checkSymbols _) ok
  obtain ⟨_, rest, -⟩ := bind_of_quiet (quiet_requireDefault _ _ _) ok
  exact ⟨⟨at_, symbols⟩, requireDefault_eq_ok rest⟩

/-- The rules for decimals and the one for a default have been kept. -/
theorem acceptFixed_checked (typed : lookup "type" members = some (.str "fixed"))
    (ok : acceptType outer default (.obj members) names = .ok ((), names')) :
    checkDecimal (.str "fixed") members names = .ok ((), names) ∧
      ∀ d, default = some d → isText d = .ok true := by
  rw [acceptType_fixed outer default typed] at ok
  obtain ⟨_, decimal, ok⟩ := bind_of_quiet (quiet_checkDecimal _ _) ok
  obtain ⟨_, _, -, ok⟩ := Run.bind_eq_ok.1 ok
  obtain ⟨_, _, -, ok⟩ := Run.bind_eq_ok.1 ok
  obtain ⟨_, rest, -⟩ := bind_of_quiet (quiet_requireDefault _ _ _) ok
  exact ⟨decimal, requireDefault_eq_ok rest⟩

/-- So have they for a primitive type, whose default must be written as one of it. -/
theorem acceptPrimitive_checked {name : String}
    (typed : lookup "type" members = some (.str name)) (primitive : isPrimitive name = true)
    (ok : acceptType outer default (.obj members) names = .ok ((), names')) :
    checkDecimal (.str name) members names = .ok ((), names) ∧
      ∀ d, default = some d → fitsPrimitive true name d = .ok true := by
  rw [acceptType_other outer default typed (isConstructor_primitive primitive)] at ok
  obtain ⟨_, decimal, ok⟩ := bind_of_quiet (quiet_checkDecimal _ _) ok
  unfold acceptPrimitive at ok
  dsimp only at ok
  rw [if_pos primitive] at ok
  exact ⟨decimal, requireDefault_eq_ok ok⟩

theorem acceptWord_default {name : String} (primitive : isPrimitive name = true)
    (ok : acceptType outer default (.str name) names = .ok ((), names')) :
    ∀ d, default = some d → fitsPrimitive false name d = .ok true := by
  rw [acceptType_primitive outer default primitive] at ok
  exact requireDefault_eq_ok ok

end

end AvroRegistry.Schema
