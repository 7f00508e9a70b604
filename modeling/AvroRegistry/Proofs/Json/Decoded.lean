import AvroRegistry.Proofs.Json.Reals
import AvroRegistry.Proofs.Json.RoundTrip
import Mathlib.Data.List.Induction

/-!
# What is read

Whatever text it is read from, a value has no key twice in an object, no integer that is too long to
be written and read again, and its real numbers have the one form of a number (`decode_plain`): the
first because a key that occurs again replaces the member of that key, the second because longer
integers are refused, the third because reals are rounded. A number in that form is read back from
its text, so a plain value is readable (`readsBack_of_plain`).
-/

namespace AvroRegistry.Json

/-- A value as it is read from a text, as far as its own kind goes. -/
def Plain : Json → Prop
  | int n => IsShort n
  | float x => x.Normal
  | obj members => (keys members).Nodup
  | _ => True

instance : DecidablePred Plain
  | int n => inferInstanceAs (Decidable ((Nat.toDigits 10 n.natAbs).length ≤ _))
  | float x => inferInstanceAs (Decidable x.Normal)
  | obj members => inferInstanceAs (Decidable (keys members).Nodup)
  | null | bool _ | str _ | arr _ => isTrue trivial

/-- The real numbers of a plain value are read back. -/
theorem readsBack_of_plain {v : Json} (plain : Everywhere Plain v) :
    ∀ negative mantissa exponent, float (.finite negative mantissa exponent) ∈ v.parts →
      (Binary64.finite negative mantissa exponent).ReadsBack :=
  fun _ _ _ mem => readsBack (plain _ mem)

/-- A plain value is readable if its real numbers are read back. -/
theorem readable_of_plain {v : Json} (plain : Everywhere Plain v)
    (numbers : ∀ negative mantissa exponent, float (.finite negative mantissa exponent) ∈ v.parts →
      (Binary64.finite negative mantissa exponent).ReadsBack) : Everywhere Readable v := by
  intro w mem
  have here := plain w mem
  cases w with
  | float x =>
    cases x with
    | finite negative mantissa exponent => exact numbers negative mantissa exponent mem
    | _ => trivial
  | _ => exact here

/-- So is a plain value without real numbers. -/
theorem readable_of_exact {v : Json} (exact : ∀ w ∈ v.parts, Plain w ∧ w.kindName ≠ "float") :
    Everywhere Readable v :=
  readable_of_plain (fun w mem => (exact w mem).1) fun _ _ _ mem => absurd rfl (exact _ mem).2

/-! ## Numbers -/

theorem value_append (cs : List Char) (c : Char) :
    Text.value (cs ++ [c]) = 10 * Text.value cs + (c.toNat - '0'.toNat) := by
  simp [Text.value]

/-- Digits are worth less than the power of ten with as many zeros. -/
theorem value_lt {cs : List Char} (digits : ∀ c ∈ cs, c.isDigit = true) :
    Text.value cs < Nat.pow 10 cs.length := by
  induction cs using List.reverseRecOn with
  | nil => exact Nat.one_pos
  | append_singleton cs c ih =>
    have before := ih fun d mem => digits d (List.mem_append_left _ mem)
    have last : c.toNat ≤ 57 := (Char.isDigit_iff_toNat.1 (digits c (by simp))).2
    have zero : '0'.toNat = 48 := rfl
    have more : Nat.pow 10 (cs.length + 1) = Nat.pow 10 cs.length * 10 := rfl
    rw [value_append, List.length_append, List.length_singleton, zero, more]
    omega

theorem wholeDigits_digits (cs : List Char) : ∀ c ∈ wholeDigits cs, c.isDigit = true := by
  unfold wholeDigits
  split
  · exact forall_mem_of_all (by decide)
  · exact fun c mem => List.mem_takeWhile_imp mem

theorem isShort_of_digits {cs : List Char} (digits : ∀ c ∈ cs, c.isDigit = true)
    (short : cs.length ≤ Text.maxIntegerDigits) {n : Int} (worth : n.natAbs = Text.value cs) :
    IsShort n := by
  have some : 0 < Text.maxIntegerDigits := by decide
  unfold IsShort
  generalize Text.maxIntegerDigits = limit at short some ⊢
  rw [worth, Nat.length_toDigits_le_iff (by decide) some]
  exact Nat.lt_of_lt_of_le (value_lt digits) (Nat.pow_le_pow_right (by decide) short)

theorem readUnsigned?_plain {negative : Bool} {cs rest : List Char} {v : Json}
    (number : readUnsigned? negative cs = some (.ok (v, rest))) : Everywhere Plain v := by
  unfold readUnsigned? at number
  dsimp only at number
  split at number
  · cases number
  split at number
  · split at number
    · cases number
    · next short =>
      cases number
      refine (everywhere_of_isKey rfl).2 (isShort_of_digits (wholeDigits_digits cs)
        (Nat.not_lt.1 short) ?_)
      split <;> omega
  · cases number
    exact (everywhere_of_isKey rfl).2 (Binary64.ofDecimal_normal _ _ _)

theorem readScalar_plain {cs rest : List Char} {v : Json}
    (scalar : readScalar cs = .ok (v, rest)) : Everywhere Plain v := by
  have word : ∀ (table : List (List Char × Json)) (found : Json × List Char),
      readWord? cs table = some found → found.1 ∈ table.map (·.2) := by
    intro table found ok
    induction table with
    | nil => cases ok
    | cons entry more ih =>
      obtain ⟨w, u⟩ := entry
      rw [readWord?] at ok
      split at ok
      · cases ok
        exact List.mem_cons_self
      · exact List.mem_cons_of_mem _ (ih ok)
  unfold readScalar at scalar
  split at scalar
  · next found =>
    cases scalar
    have listed : ∀ u ∈ words.map (·.2), u.isKey = true ∧ Plain u := by decide
    obtain ⟨key, plain⟩ := listed v (word words _ found)
    exact (everywhere_of_isKey key).2 plain
  · split at scalar
    · next number =>
      subst scalar
      unfold readNumber? at number
      split at number
      · exact readUnsigned?_plain number
      · exact readUnsigned?_plain number
    · cases scalar

/-! ## Values -/

theorem keys_insert (key : String) (v : Json) (members : List (String × Json)) :
    keys (insert key v members) =
      if key ∈ keys members then keys members else keys members ++ [key] := by
  induction members with
  | nil => rfl
  | cons m rest ih =>
    obtain ⟨k, w⟩ := m
    have split : keys ((k, w) :: rest) = k :: keys rest := rfl
    rw [insert, split]
    by_cases same : k = key
    · simp [same, keys]
    · have step : keys ((k, w) :: insert key v rest) = k :: keys (insert key v rest) := rfl
      rw [if_neg same, step, ih]
      by_cases later : key ∈ keys rest
      · simp [later]
      · simp [later, Ne.symm same]

theorem nodup_insert {key : String} {v : Json} {members : List (String × Json)}
    (distinct : (keys members).Nodup) : (keys (insert key v members)).Nodup := by
  rw [keys_insert]
  split
  · exact distinct
  · next new =>
    rw [List.nodup_append]
    refine ⟨distinct, List.pairwise_singleton _ _, ?_⟩
    intro a mem b single
    rw [List.mem_singleton.1 single]
    rintro rfl
    exact new mem

theorem mem_insert {key : String} {v : Json} {members : List (String × Json)}
    {m : String × Json} (mem : m ∈ insert key v members) : m.2 = v ∨ m ∈ members := by
  induction members with
  | nil => exact .inl (by rw [List.mem_singleton.1 mem])
  | cons first rest ih =>
    obtain ⟨k, w⟩ := first
    rw [insert] at mem
    split at mem
    · rcases List.mem_cons.1 mem with rfl | later
      · exact .inl rfl
      · exact .inr (List.mem_cons_of_mem _ later)
    · rcases List.mem_cons.1 mem with rfl | later
      · exact .inr List.mem_cons_self
      · exact (ih later).imp_right (List.mem_cons_of_mem _)

/-- A member that is set keeps an object plain. -/
theorem plain_insert {v : Json} {members : List (String × Json)}
    (plain : Everywhere Plain (obj members)) (value : Everywhere Plain v) (key : String) :
    Everywhere Plain (obj (insert key v members)) := by
  obtain ⟨distinct, each⟩ := (everywhere_obj members).1 plain
  refine (everywhere_obj _).2 ⟨nodup_insert distinct, fun m mem => ?_⟩
  rcases mem_insert mem with same | before
  · rw [same]
    exact value
  · exact each m before

theorem plain_nil : Everywhere Plain (obj []) :=
  (everywhere_obj []).2 ⟨List.nodup_nil, by simp⟩

/-- What reading gives is plain: a value, the items of an array, the members of an object. -/
theorem read_plain (fuel : Nat) :
    (∀ cs v rest, readValue fuel cs = .ok (v, rest) → Everywhere Plain v) ∧
    (∀ cs items rest, readItems fuel cs = .ok (items, rest) → ∀ v ∈ items, Everywhere Plain v) ∧
    (∀ cs done members rest, readMembers fuel done cs = .ok (members, rest) →
      Everywhere Plain (obj done) → Everywhere Plain (obj members)) := by
  induction fuel with
  | zero => exact ⟨nofun, nofun, nofun⟩
  | succ fuel ih =>
    obtain ⟨values, items, members⟩ := ih
    refine ⟨?_, ?_, ?_⟩
    · intro cs v rest ok
      rw [readValue.eq_def] at ok
      dsimp only at ok
      split at ok
      · split at ok
        · cases ok
          exact (everywhere_of_isKey rfl).2 trivial
        · cases ok
      · split at ok
        · cases ok
          exact (everywhere_arr []).2 ⟨trivial, by simp⟩
        · split at ok
          · next found =>
            cases ok
            exact (everywhere_arr _).2 ⟨trivial, items _ _ _ found⟩
          · cases ok
      · split at ok
        · cases ok
          exact plain_nil
        · split at ok
          · next found =>
            cases ok
            exact members _ _ _ _ found plain_nil
          · cases ok
      · exact readScalar_plain ok
    · intro cs found rest ok
      rw [readItems] at ok
      split at ok
      · cases ok
      next v after value =>
        have first := values _ _ _ value
        split at ok
        · cases ok
          exact List.forall_mem_singleton.2 first
        · split at ok
          · next others =>
            cases ok
            exact List.forall_mem_cons.2 ⟨first, items _ _ _ others⟩
          · cases ok
        · cases ok
    · intro cs done found rest ok plain
      rw [readMembers.eq_def] at ok
      dsimp only at ok
      split at ok
      · split at ok
        · cases ok
        split at ok
        · split at ok
          · cases ok
          next v after value =>
            have set := plain_insert plain (values _ _ _ value)
            split at ok
            · cases ok
              exact set _
            · exact members _ _ _ _ ok (set _)
            · cases ok
        · cases ok
      · cases ok

/-- A value that was read from a text is plain. -/
theorem decode_plain {text : String} {v : Json} (ok : decode text = .ok v) :
    Everywhere Plain v := by
  obtain ⟨rest, value, -⟩ := read_eq_ok (decode_eq_ok.1 ok)
  exact (read_plain _).1 _ _ _ value

end AvroRegistry.Json
