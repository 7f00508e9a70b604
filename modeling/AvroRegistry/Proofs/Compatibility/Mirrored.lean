import AvroRegistry.Proofs.Compatibility.Reflexive

/-!
# A reader that mirrors its writer

When a schema is changed a little, its types and those of the original correspond to each other. If
corresponding types match as long as their parts correspond, and every branch of a union has a
corresponding one, the changed schema reads the original, in whatever order a check goes through the
branches (`Parallel.reads`).
-/

namespace AvroRegistry.Compatibility

open Schema (Form FieldHead)

/-- A correspondence between the types of a reader and those of a writer, under which the reader has
a type for every type of the writer. -/
structure Parallel (reader writer : Form) (alike : Form → Form → Prop) : Prop where
  /-- Names stand for corresponding types. -/
  resolved : ∀ {r w}, alike r w → alike (reader.resolve r) (writer.resolve w)
  /-- Only a union corresponds to a union, and each of its branches has one that corresponds. -/
  branches : ∀ {r branches}, alike r (.union branches) →
    ∃ branches', r = .union branches' ∧ ∀ c ∈ branches, ∃ c' ∈ branches', alike c' c
  /-- A union corresponds to nothing but unions. -/
  single : ∀ {branches w}, alike (.union branches) w → IsUnion w
  /-- Other types match if their parts correspond. -/
  matched : ∀ {r w}, alike r w → writer.resolve w = w → ¬ IsUnion w → Matches alike r w

/-- A type of the reader mirrors one of the writer: what they stand for corresponds, or the first one
is a union with a branch that mirrors the second one. -/
inductive Mirrors (reader writer : Form) (alike : Form → Form → Prop) : Form → Form → Prop where
  | same {r w : Form} (stand : alike (reader.resolve r) (writer.resolve w)) :
      Mirrors reader writer alike r w
  | branch {branches : List Form} {b w : Form} (mem : b ∈ branches)
      (one : Mirrors reader writer alike b w) : Mirrors reader writer alike (.union branches) w

section

variable {reader writer : Form} {alike : Form → Form → Prop} {r w : Form}

theorem Mirrors.written (mirrors : Mirrors reader writer alike r w) :
    Mirrors reader writer alike r (writer.resolve w) := by
  induction mirrors with
  | same stand =>
    apply Mirrors.same
    rwa [resolve_resolve]
  | branch mem _ ih => exact .branch mem ih

theorem Mirrors.read (mirrors : Mirrors reader writer alike r w) :
    Mirrors reader writer alike (reader.resolve r) w := by
  cases mirrors with
  | same stand =>
    apply Mirrors.same
    rwa [resolve_resolve]
  | branch mem one => exact .branch mem one

/-- What mirrors a union mirrors its branches. -/
theorem Mirrors.branches (parallel : Parallel reader writer alike) {branches : List Form}
    (mirrors : Mirrors reader writer alike r (.union branches)) {c : Form} (mem : c ∈ branches) :
    Mirrors reader writer alike r c := by
  generalize whole : Form.union branches = w at mirrors
  induction mirrors with
  | same stand =>
    subst whole
    obtain ⟨branches', stands, each⟩ := parallel.branches stand
    obtain ⟨c', mem', corresponds⟩ := each c mem
    rw [eq_of_resolve_union stands]
    exact .branch mem' (.same (parallel.resolved corresponds))
  | branch inside _ ih => exact .branch inside (ih whole)

/-- Mirroring agrees with the rules of resolution. -/
theorem mirrors_consistent (parallel : Parallel reader writer alike) :
    Consistent reader writer (Mirrors reader writer alike) := by
  intro a b mirrors
  by_cases union : IsUnion (writer.resolve b)
  · obtain ⟨branches, stands⟩ := union
    have whole := mirrors.written.read
    rw [stands] at whole ⊢
    exact .every fun c mem => whole.branches parallel mem
  · cases mirrors with
    | same stand =>
      refine .plain ?_ union ?_
      · rintro ⟨branches, is⟩
        rw [is] at stand
        exact union (parallel.single stand)
      · refine (parallel.matched stand (resolve_resolve writer b) union).mono ?_
        exact fun c d corresponds => .same (parallel.resolved corresponds)
    | branch mem one => exact .some union mem one.written

/-- A reader that corresponds to its writer reads it. -/
theorem Parallel.reads (parallel : Parallel reader writer alike) (top : alike reader writer) :
    Reads reader writer reader writer :=
  ⟨Mirrors reader writer alike, mirrors_consistent parallel, .same (parallel.resolved top)⟩

/-! ## Parts -/

/-- The types that a type is directly made of. -/
def directParts : Form → List Form
  | .union branches => branches
  | .array items => [items]
  | .map values => [values]
  | .record _ _ _ fields => fields.map (·.2)
  | _ => []

theorem directParts_mem_nodes {root a c : Form} (node : a ∈ root.nodes) (mem : c ∈ directParts a) :
    c ∈ root.nodes := by
  cases a with
  | union branches => exact Form.branch_mem_nodes node mem
  | array items =>
    obtain rfl := List.mem_singleton.1 mem
    exact Form.items_mem_nodes node
  | map values =>
    obtain rfl := List.mem_singleton.1 mem
    exact Form.values_mem_nodes node
  | record isError full aliases fields =>
    obtain ⟨f, field, rfl⟩ := List.mem_map.1 mem
    exact Form.type_mem_nodes node field
  | _ => cases mem

/-- A type that is no union matches itself if its parts read themselves and its size, if it has one,
equals itself. -/
theorem matches_same {reads : Form → Form → Prop} {a : Form} (grounded : Grounded a)
    (tidy : a.Tidy) (single : ¬ IsUnion a)
    (sizes : ∀ full aliases size attributes, a = .fixed full aliases size attributes →
      size.equal size = true)
    (each : ∀ c ∈ directParts a, reads c c) : Matches reads a a := by
  cases a with
  | name n => exact .primitive (grounded n rfl) rfl rfl
  | annotated p attributes => exact .primitive (grounded p rfl) rfl rfl
  | union branches => exact absurd ⟨branches, rfl⟩ single
  | array items => exact .array (each items List.mem_cons_self)
  | map values => exact .map (each values List.mem_cons_self)
  | record isError full aliases fields =>
    refine .record (.inl rfl) (fieldsRead_self tidy.2 fun f mem => ?_)
    exact each f.2 (List.mem_map_of_mem mem)
  | enumeration full aliases symbols default =>
    refine .enumeration (.inl rfl) (.inl fun s mem => ?_)
    exact List.any_eq_true.2 ⟨s, mem, Json.same_refl (List.all_eq_true.1 tidy.1 s mem)⟩
  | fixed full aliases size attributes => exact .fixed (.inl rfl) (sizes _ _ _ _ rfl)

end

end AvroRegistry.Compatibility
