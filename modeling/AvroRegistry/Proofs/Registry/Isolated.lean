import AvroRegistry.Proofs.Registry.Abreast

/-!
# Scopes do not interfere

Leave out of a run everything that concerns other scopes only. The answers to what is left are the
ones it got before, but for ids and raw texts; and the ids of the two runs stand for one another one
to one. Schemas are shared between scopes, so in the whole run another scope may have stored a
schema first, under another id and with another raw text, or may have made the ids go up.

The two runs are abreast all along: what concerns the scope is carried out by both, and the rest by
one of them, which it leaves in agreement with the other.
-/

namespace AvroRegistry

open Compatibility (Mode)

namespace Registry

/-- Of the answers to operations, those to the ones that concern a scope. -/
def answersFor (scope : Scope) :
    List Operation → List (Except Failure Result) → List (Except Failure Result)
  | op :: ops, answer :: answers =>
    if op.concerns scope then answer :: answersFor scope ops answers
    else answersFor scope ops answers
  | _, _ => []

/-- A canonical text that some operations submit for registration. -/
def Offered (ops : List Operation) (text : String) : Prop :=
  ∃ subject part schema candidate, .register subject part schema ∈ ops ∧
    canonicalOf schema = .ok candidate ∧ candidate.text = text

section

variable {texts : String → Prop} {default : Mode} {scope : Scope} {start r s : Registry}
  {ops : List Operation}

theorem submits_offered {op : Operation} (mem : op ∈ ops) : Submits (Offered ops) op := by
  cases op with
  | register subject part schema =>
    exact fun candidate accepted => ⟨subject, part, schema, candidate, mem, accepted, rfl⟩
  | _ => exact trivial

/-- A whole run and the run of what concerns a scope. -/
structure Follow (scope : Scope) (r s : Registry) (ops kept : List Operation) : Prop where
  answers : List.Forall₂ (AnswersMatch (Names (r.after ops) (s.after kept)))
    (answersFor scope ops (r.answers ops)) (s.answers kept)
  more : r.schemas.entries ⊆ (r.after ops).schemas.entries
  more' : s.schemas.entries ⊆ (s.after kept).schemas.entries

/-- Two registries that agree on a scope answer alike to what concerns it, also when one of them
carries out other operations in between. -/
theorem Beside.follow (distinct : Distinct texts) (ops : List Operation) :
    ∀ {r s : Registry}, Beside texts default scope r s → (∀ op ∈ ops, Submits texts op) →
      Beside texts default scope (r.after ops) (s.after (ops.filter (Operation.concerns scope))) ∧
        Follow scope r s ops (ops.filter (Operation.concerns scope)) := by
  induction ops with
  | nil => exact fun beside _ => ⟨beside, .nil, List.Subset.refl _, List.Subset.refl _⟩
  | cons op rest ih =>
    intro r s beside submits
    have submits' : ∀ op ∈ rest, Submits texts op := fun op mem =>
      submits op (List.mem_cons_of_mem _ mem)
    cases concerns : op.concerns scope with
    | true =>
      have paired := beside.perform distinct (submits op List.mem_cons_self) concerns
      obtain ⟨last, later⟩ := ih paired.beside submits'
      rw [List.filter_cons_of_pos concerns]
      refine ⟨last, ?_, List.Subset.trans paired.more later.more,
        List.Subset.trans paired.more' later.more'⟩
      rw [Registry.answers, answersFor, if_pos concerns]
      exact .cons (paired.answers.mono (Names.mono later.more later.more')) later.answers
    | false =>
      obtain ⟨filled, agree, more⟩ :=
        beside.left.perform_spares distinct (submits op List.mem_cons_self) concerns
      have beside' : Beside texts default scope ((Registry.perform op).outcome r).2 s :=
        ⟨filled, beside.right, agree.symm.trans beside.agree⟩
      obtain ⟨last, later⟩ := ih beside' submits'
      rw [List.filter_cons_of_neg (by rw [concerns]; exact Bool.false_ne_true)]
      refine ⟨last, ?_, List.Subset.trans more later.more, later.more'⟩
      rw [Registry.answers, answersFor, concerns, if_neg Bool.false_ne_true]
      exact later.answers

/-! ## Registries with a file -/

theorem operations_perform (ops : List Operation) : Event.operations (ops.map .perform) = ops := by
  induction ops with
  | nil => rfl
  | cons op rest ih => exact congrArg (op :: ·) ih

theorem answersThrough_perform (default : Mode) (ops : List Operation) :
    ∀ r : Registry, r.answersThrough default (ops.map .perform) = r.answers ops := by
  induction ops with
  | nil => exact fun _ => rfl
  | cons op rest ih => exact fun r => congrArg (((perform op).outcome r).1 :: ·) (ih _)

/-- A registry answers as one in memory does, with a file as long as ids and numbers fit. -/
theorem Begins.answers_eq (begins : Begins default start)
    (fits : start.storage.isSome = true → Fits (after (fresh default none) ops)) :
    start.answers ops = answers (fresh default none) ops := by
  cases begins with
  | memory => rfl
  | file database unprepared opening =>
    cases (openWith_new database unprepared default).1.symm.trans opening
    have together : Together default (fresh default none)
        (fresh default (some (Storage.ready _ {}))) :=
      ⟨rfl, sound_fresh default, sound_opened database unprepared default,
        (Alike.refl (fresh default none)).withFile none _⟩
    have same := together.answers (ops.map .perform) rfl
    rw [operations_perform, answersThrough_perform] at same
    exact same (fits rfl)

/-! ## Isolation -/

theorem beside_fresh (texts : String → Prop) (default : Mode) (scope : Scope) :
    Beside texts default scope (fresh default none) (fresh default none) := by
  have filled : Filled texts default (fresh default none) := ⟨rfl, sound_fresh default, nofun⟩
  exact ⟨filled, filled, Agree.refl scope _⟩

/-- What a run answers to the operations that concern a scope is what these operations alone are
answered, but for raw texts and for ids, which stand for one another one to one. A registry with a
file has to have room for the ids and numbers of both runs. -/
theorem Begins.isolated (begins : Begins default start) (scope : Scope) (ops : List Operation)
    (distinct : Distinct (Offered ops))
    (fits : start.storage.isSome = true → Fits (after (fresh default none) ops) ∧
      Fits (after (fresh default none) (ops.filter (Operation.concerns scope)))) :
    ∃ names : Int → Int → Prop, Relator.BiUnique names ∧
      List.Forall₂ (AnswersMatch names) (answersFor scope ops (start.answers ops))
        (start.answers (ops.filter (Operation.concerns scope))) := by
  obtain ⟨last, follow⟩ := (beside_fresh (Offered ops) default scope).follow distinct ops
    fun op mem => submits_offered mem
  refine ⟨_, biUnique_names last.left.sound last.right.sound, ?_⟩
  rw [begins.answers_eq fun backed => (fits backed).1,
    begins.answers_eq fun backed => (fits backed).2]
  exact follow.answers

/-- Two scopes register schemas, the second one also the schema of the first. -/
def shared : List Operation :=
  [.register (.str "payments") (.typed .value) (.str "\"int\""),
    .register (.str "orders") (.typed .value) (.str "\"string\""),
    .deleteSubject (.str "payments") (.typed .value),
    .setGlobalMode (.typed .none),
    .register (.str "orders") (.typed .value) (.str "\x7b\"type\": \"int\"\x7d"),
    .schemaAt (.str "orders") (.typed .value) (.str "latest")]

theorem offered_shared {text : String} (offered : Offered shared text) :
    text ∈ ["\"int\"", "\"string\""] := by
  obtain ⟨subject, part, schema, candidate, mem, accepted, rfl⟩ := offered
  have known : textOf? (.str "\"int\"") = some "\"int\"" ∧
      textOf? (.str "\"string\"") = some "\"string\"" ∧
      textOf? (.str "\x7b\"type\": \"int\"\x7d") = some "\"int\"" := by decide +kernel
  simp only [shared, List.mem_cons, Operation.register.injEq, reduceCtorEq, List.not_mem_nil,
    or_false, false_or] at mem
  rcases mem with ⟨-, -, rfl⟩ | ⟨-, -, rfl⟩ | ⟨-, -, rfl⟩
  · simp [text_of_textOf? known.1 accepted]
  · simp [text_of_textOf? known.2.1 accepted]
  · simp [text_of_textOf? known.2.2 accepted]

theorem isolated_shared :
    Begins .full (fresh .full none) ∧ Distinct (Offered shared) ∧
      (shared.filter (Operation.concerns orders)).length = 4 ∧
      ∃ names : Int → Int → Prop, Relator.BiUnique names ∧
        List.Forall₂ (AnswersMatch names)
          (answersFor orders shared (answers (fresh .full none) shared))
          (answers (fresh .full none) (shared.filter (Operation.concerns orders))) := by
  have distinct : Distinct (Offered shared) := by
    intro text text' offered offered' same
    have differ : ∀ t ∈ ["\"int\"", "\"string\""], ∀ t' ∈ ["\"int\"", "\"string\""],
        Schema.fingerprint t = Schema.fingerprint t' → t = t' := by decide +kernel
    exact differ _ (offered_shared offered) _ (offered_shared offered') same
  exact ⟨.memory .full, distinct, by decide +kernel,
    Begins.isolated (.memory .full) orders shared distinct
    nofun⟩

end

end Registry

end AvroRegistry
