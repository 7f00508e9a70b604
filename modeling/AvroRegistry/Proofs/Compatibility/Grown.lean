import AvroRegistry.Proofs.Compatibility.Edited
import Mathlib.Data.List.Forall2

/-!
# Types that grow

A type grows if branches or symbols are added to it, if its fields or its symbols are given a
default, or if its parts grow. Data that a type reads is read by whatever it has grown into, and
what reads data of a type reads data of whatever has grown into it (`ReadsStep.of_grown_reader`,
`ReadsStep.of_grown_writer`): a reader may gain what a writer may lose. Only defaults are wanted on
both sides, so what is asked of the heads of fields is left open in `Grown`.
-/

namespace AvroRegistry.Compatibility

open Schema (Form FieldHead)

/-! ## Fields side by side -/

section

variable {α β : Type} {related : α → β → Prop} {xs : List α} {ys : List β}

theorem exists_right (side : List.Forall₂ related xs ys) {x : α} (mem : x ∈ xs) :
    ∃ y ∈ ys, related x y := by
  induction side with
  | nil => simp at mem
  | cons first _ ih =>
    rcases List.mem_cons.1 mem with rfl | later
    · exact ⟨_, List.mem_cons_self, first⟩
    · obtain ⟨y, listed, h⟩ := ih later
      exact ⟨y, List.mem_cons_of_mem _ listed, h⟩

theorem exists_left (side : List.Forall₂ related xs ys) {y : β} (mem : y ∈ ys) :
    ∃ x ∈ xs, related x y := by
  obtain ⟨x, listed, h⟩ := exists_right (List.Forall₂.flip (R := flip related) side) mem
  exact ⟨x, listed, h⟩

/-- Two lists that are the same but for one place. -/
theorem forall₂_at {related : α → α → Prop} {before after : List α} {a b : α}
    (same : ∀ c ∈ before ++ after, related c c) (here : related a b) :
    List.Forall₂ related (before ++ a :: after) (before ++ b :: after) := by
  refine List.rel_append ?_ (.cons here ?_)
  · exact List.forall₂_same.2 fun c mem => same c (List.mem_append_left _ mem)
  · exact List.forall₂_same.2 fun c mem => same c (List.mem_append_right _ mem)

end

/-! ## Growing -/

/-- A type grows into another one, given what holds of their parts and of the heads of their
fields. -/
inductive Grown (heads : FieldHead → FieldHead → Prop) (part : Form → Form → Prop) :
    Form → Form → Prop where
  | name (n : String) : Grown heads part (.name n) (.name n)
  | annotated (p : String) (attributes : List (String × Json)) :
      Grown heads part (.annotated p attributes) (.annotated p attributes)
  | fixed (full : String) (aliases : List Json) (size : Json) (attributes : List (String × Json)) :
      Grown heads part (.fixed full aliases size attributes) (.fixed full aliases size attributes)
  | array {a b : Form} (items : part a b) : Grown heads part (.array a) (.array b)
  | map {a b : Form} (values : part a b) : Grown heads part (.map a) (.map b)
  | union {branches branches' : List Form}
      (each : ∀ c ∈ branches, ∃ c' ∈ branches', part c c') :
      Grown heads part (.union branches) (.union branches')
  | record (isError : Bool) (full : String) (aliases : List Json)
      {fields fields' : List (FieldHead × Form)}
      (side : List.Forall₂ (fun f f' => heads f.1 f'.1 ∧ part f.2 f'.2) fields fields') :
      Grown heads part (.record isError full aliases fields) (.record isError full aliases fields')
  | enumeration (full : String) (aliases : List Json) {symbols symbols' : List Json}
      {default default' : Option Json} (kept : symbols ⊆ symbols')
      (defaulted : default.isSome = true → default'.isSome = true) :
      Grown heads part (.enumeration full aliases symbols default)
        (.enumeration full aliases symbols' default')

section

variable {heads : FieldHead → FieldHead → Prop} {part : Form → Form → Prop} {a b : Form}

/-- A type grows into itself if its parts do. -/
theorem grown_self (refl : ∀ head, heads head head) (each : ∀ c ∈ directParts a, part c c) :
    Grown heads part a a := by
  cases a with
  | name n => exact .name n
  | annotated p attributes => exact .annotated p attributes
  | fixed full aliases size attributes => exact .fixed full aliases size attributes
  | array items => exact .array (each items List.mem_cons_self)
  | map values => exact .map (each values List.mem_cons_self)
  | union branches => exact .union fun c mem => ⟨c, mem, each c mem⟩
  | record isError full aliases fields =>
    refine .record isError full aliases (List.forall₂_same.2 fun f mem => ⟨refl f.1, ?_⟩)
    exact each f.2 (List.mem_map_of_mem mem)
  | enumeration full aliases symbols default =>
    exact .enumeration full aliases (List.Subset.refl symbols) id

theorem Grown.isUnion (grown : Grown heads part a b) : IsUnion a ↔ IsUnion b := by
  cases grown <;> simp [IsUnion]

/-- A type of which one part is edited grows, if whatever is edited does. -/
theorem grown_of_edited {edit : Form → Form → Prop} {root : Form}
    (refl : ∀ head, heads head head)
    (here : ∀ {a b}, edit a b → (∀ c ∈ directParts a, c ∈ root.nodes) →
      Grown heads (fun c d => c ∈ root.nodes ∧ Edited edit c d) a b)
    (node : a ∈ root.nodes) (edited : Edited edit a b) :
    Grown heads (fun c d => c ∈ root.nodes ∧ Edited edit c d) a b := by
  have known : ∀ c ∈ directParts a, c ∈ root.nodes := fun c => directParts_mem_nodes node
  rcases edited with rfl | one
  · exact grown_self refl fun c mem => ⟨known c mem, .inl rfl⟩
  · cases one with
    | here edited => exact here edited known
    | items inner => exact .array ⟨known _ List.mem_cons_self, .inr inner⟩
    | values inner => exact .map ⟨known _ List.mem_cons_self, .inr inner⟩
    | @branch before after a b inner =>
      have side : List.Forall₂ (fun c d => c ∈ root.nodes ∧ Edited edit c d)
          (before ++ a :: after) (before ++ b :: after) := by
        refine forall₂_at (fun c mem => ⟨known c ?_, .inl rfl⟩) ⟨known a (by simp [directParts]),
          .inr inner⟩
        simp only [directParts, List.mem_append, List.mem_cons] at mem ⊢
        tauto
      exact .union fun c mem => exists_right side mem
    | @field isError full aliases before after head a b inner =>
      refine .record isError full aliases (forall₂_at (fun f mem => ?_) ?_)
      · refine ⟨refl f.1, known f.2 (List.mem_map_of_mem ?_), .inl rfl⟩
        simp only [List.mem_append, List.mem_cons] at mem ⊢
        tauto
      · exact ⟨refl head, known a (by simp [directParts]), .inr inner⟩

end

/-! ## A reader that has grown -/

/-- The head of a field of a reader that may have been given a default. -/
structure ReaderHead (head head' : FieldHead) : Prop where
  name : head'.name = head.name
  aliases : head'.aliases = head.aliases
  default : head.default.isSome = true → head'.default.isSome = true

section

variable {part reads wider : Form → Form → Prop}

theorem FieldsRead.of_grown_reader {fields fields' writer : List (FieldHead × Form)}
    (side : List.Forall₂ (fun f f' => ReaderHead f.1 f'.1 ∧ part f.2 f'.2) fields fields')
    (le : ∀ {c c' d}, part c c' → reads c d → wider c' d)
    (read : FieldsRead reads fields writer) : FieldsRead wider fields' writer := by
  have same : ∀ {f f' : FieldHead × Form}, ReaderHead f.1 f'.1 →
      counterpart? writer f'.1 = counterpart? writer f.1 := by
    intro f f' head
    unfold counterpart?
    rw [head.name, head.aliases]
  constructor
  · intro f' mem g found
    obtain ⟨f, listed, head, grown⟩ := exists_left side mem
    rw [same head] at found
    exact le grown (read.found f listed g found)
  · intro f' mem none
    obtain ⟨f, listed, head, -⟩ := exists_left side mem
    rw [same head] at none
    exact head.default (read.missing f listed none)
  · intro g mem
    refine (read.removed g mem).imp_left fun ⟨f, listed, found⟩ => ?_
    obtain ⟨f', listed', head, -⟩ := exists_right side listed
    exact ⟨f', listed', (same head).trans found⟩

variable {a a' b : Form}

theorem Matches.of_grown_reader (grown : Grown ReaderHead part a a')
    (le : ∀ {c c' d}, part c c' → reads c d → wider c' d) (matched : Matches reads a b)
    (single : ¬ IsUnion a) : Matches wider a' b := by
  cases grown with
  | name _ | annotated _ _ =>
    cases matched with
    | primitive known reader writer => exact .primitive known reader writer
    | promotion reader writer promoted => exact .promotion reader writer promoted
  | fixed full aliases size attributes =>
    cases matched with
    | primitive _ none => cases none
    | promotion none => cases none
    | fixed names sizes => exact .fixed names sizes
  | array items =>
    cases matched with
    | primitive _ none => cases none
    | promotion none => cases none
    | array read => exact .array (le items read)
  | map values =>
    cases matched with
    | primitive _ none => cases none
    | promotion none => cases none
    | map read => exact .map (le values read)
  | union => exact absurd ⟨_, rfl⟩ single
  | record isError full aliases side =>
    cases matched with
    | primitive _ none => cases none
    | promotion none => cases none
    | record names read => exact .record names (read.of_grown_reader side le)
  | enumeration full aliases kept defaulted =>
    cases matched with
    | primitive _ none => cases none
    | promotion none => cases none
    | enumeration names known =>
      refine .enumeration names (known.imp (fun each s mem => ?_) defaulted)
      obtain ⟨t, listed, same⟩ := List.any_eq_true.1 (each s mem)
      exact List.any_eq_true.2 ⟨t, kept listed, same⟩

/-- Whatever a type reads is read by what it has grown into. -/
theorem ReadsStep.of_grown_reader (grown : Grown ReaderHead part a a')
    (le : ∀ {c c' d}, part c c' → reads c d → wider c' d) (whole : ∀ d, reads a d → wider a' d)
    (step : ReadsStep reads a b) : ReadsStep wider a' b := by
  cases step with
  | every each => exact .every fun d mem => whole d (each d mem)
  | some single mem one =>
    cases grown with
    | union each =>
      obtain ⟨c', listed, h⟩ := each _ mem
      exact .some single listed (le h one)
  | plain reader writer matched =>
    exact .plain (grown.isUnion.not.1 reader) writer (matched.of_grown_reader grown le reader)

end

/-! ## A writer that has grown -/

/-- The head of a field of a writer that may have lost its default. -/
structure WriterHead (head head' : FieldHead) : Prop where
  name : head'.name = head.name
  default : head'.default.isSome = true → head.default.isSome = true

section

variable {related : FieldHead × Form → FieldHead × Form → Prop}
  {writer writer' : List (FieldHead × Form)}
  (names : ∀ {g g'}, related g g' → g'.1.name = g.1.name)
  (side : List.Forall₂ related writer writer')

include names side

theorem fieldNamed_side (name : Json) :
    Option.Rel related (fieldNamed writer name) (fieldNamed writer' name) := by
  induction side with
  | nil => exact .none
  | @cons g g' rest rest' first _ ih =>
    have same := names first
    cases found : g.1.name.same name with
    | true =>
      rw [fieldNamed, List.find?_cons_of_pos (by simpa using found), fieldNamed,
        List.find?_cons_of_pos (by simpa [same] using found)]
      exact .some first
    | false =>
      rw [fieldNamed, List.find?_cons_of_neg (by simpa using found), fieldNamed,
        List.find?_cons_of_neg (by simpa [same] using found)]
      exact ih

/-- A field has counterparts side by side in two lists of fields. -/
theorem counterpart?_side (head : FieldHead) :
    Option.Rel related (counterpart? writer head) (counterpart? writer' head) := by
  have aliased : ∀ aliases : List Json, Option.Rel related
      (aliases.findSome? (fieldNamed writer)) (aliases.findSome? (fieldNamed writer')) := by
    intro aliases
    induction aliases with
    | nil => exact .none
    | cons a rest ih =>
      have here := fieldNamed_side names side a
      rw [List.findSome?_cons, List.findSome?_cons]
      generalize fieldNamed writer a = x at here ⊢
      generalize fieldNamed writer' a = y at here ⊢
      cases here with
      | some h => exact .some h
      | none => exact ih
  have named := fieldNamed_side names side head.name
  unfold counterpart?
  generalize fieldNamed writer head.name = x at named ⊢
  generalize fieldNamed writer' head.name = y at named ⊢
  cases named with
  | some h => exact .some h
  | none => exact aliased head.aliases

end

section

variable {part reads wider : Form → Form → Prop}

theorem FieldsRead.of_grown_writer {reader writer writer' : List (FieldHead × Form)}
    (differ : Form.NamesDiffer writer)
    (side : List.Forall₂ (fun g g' => WriterHead g.1 g'.1 ∧ part g.2 g'.2) writer writer')
    (le : ∀ {c d d'}, part d d' → reads c d' → wider c d)
    (read : FieldsRead reads reader writer') : FieldsRead wider reader writer := by
  have counterparts := counterpart?_side (fun h => h.1.name) side
  constructor
  · intro f mem g found
    have beside := counterparts f.1
    rw [found] at beside
    cases found' : counterpart? writer' f.1 with
    | none =>
      rw [found'] at beside
      cases beside
    | some g' =>
      rw [found'] at beside
      cases beside with
      | some h => exact le h.2 (read.found f mem g' found')
  · intro f mem none
    have beside := counterparts f.1
    rw [none] at beside
    cases none' : counterpart? writer' f.1 with
    | none => exact read.missing f mem none'
    | some g' =>
      rw [none'] at beside
      cases beside
  · intro g mem
    obtain ⟨g', listed, head, -⟩ := exists_right side mem
    refine (read.removed g' listed).imp (fun ⟨f, inReader, found'⟩ => ⟨f, inReader, ?_⟩)
      head.default
    -- The counterpart before it grew has the same name, so it is this very field.
    have beside := counterparts f.1
    rw [found'] at beside
    cases found : counterpart? writer f.1 with
    | none =>
      rw [found] at beside
      cases beside
    | some first =>
      rw [found] at beside
      cases beside with
      | some h =>
        have inside := counterpart?_mem found
        have same : first.1.name.same g.1.name = true := by
          rw [← h.1.name, head.name]
          exact Json.same_refl (differ.keys g mem)
        rw [eq_of_same_name differ inside mem same]

variable {a b b' : Form}

theorem Matches.of_grown_writer (grown : Grown WriterHead part b b') (tidy : b.Tidy)
    (le : ∀ {c d d'}, part d d' → reads c d' → wider c d) (matched : Matches reads a b')
    (single : ¬ IsUnion b) : Matches wider a b := by
  cases grown with
  | name _ | annotated _ _ =>
    cases matched with
    | primitive known reader writer => exact .primitive known reader writer
    | promotion reader writer promoted => exact .promotion reader writer promoted
  | fixed full aliases size attributes =>
    cases matched with
    | primitive _ _ none => cases none
    | promotion _ none => cases none
    | fixed names sizes => exact .fixed names sizes
  | array items =>
    cases matched with
    | primitive _ _ none => cases none
    | promotion _ none => cases none
    | array read => exact .array (le items read)
  | map values =>
    cases matched with
    | primitive _ _ none => cases none
    | promotion _ none => cases none
    | map read => exact .map (le values read)
  | union => exact absurd ⟨_, rfl⟩ single
  | record isError full aliases side =>
    cases matched with
    | primitive _ _ none => cases none
    | promotion _ none => cases none
    | record names read => exact .record names (read.of_grown_writer tidy.2 side le)
  | enumeration full aliases kept defaulted =>
    cases matched with
    | primitive _ _ none => cases none
    | promotion _ none => cases none
    | enumeration names known =>
      exact .enumeration names (known.imp_left fun each s mem => each s (kept mem))

/-- Whatever reads a type reads what has grown into it. -/
theorem ReadsStep.of_grown_writer (grown : Grown WriterHead part b b') (tidy : b.Tidy)
    (le : ∀ {c d d'}, part d d' → reads c d' → wider c d) (whole : ∀ c, reads c b' → wider c b)
    (step : ReadsStep reads a b') : ReadsStep wider a b := by
  cases step with
  | every each =>
    cases grown with
    | union others =>
      refine .every fun d mem => ?_
      obtain ⟨d', listed, h⟩ := others d mem
      exact le h (each d' listed)
  | some single mem one => exact .some (grown.isUnion.not.2 single) mem (whole _ one)
  | plain reader writer matched =>
    have single := grown.isUnion.not.2 writer
    exact .plain reader single (matched.of_grown_writer grown tidy le single)

end

end AvroRegistry.Compatibility
