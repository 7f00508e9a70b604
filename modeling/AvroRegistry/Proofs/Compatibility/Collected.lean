import AvroRegistry.Compatibility.Resolution
import AvroRegistry.Proofs.Runs
import AvroRegistry.Proofs.Schema.Members

/-!
# The names collected from a canonical form

Collecting the named types of a form's value succeeds and enters, from left to right, every
definition whose name is not there yet. A look-up among them is therefore `Form.definition?`, and
`resolveIn` is `Form.resolve`: reading the names off a value loses nothing against reading them off
the form.
-/

namespace AvroRegistry.Compatibility

open Schema (Container Form FieldHead)

/-! ## Entering definitions -/

/-- The names after the definitions among some types are entered, each under a name that is not
there yet. -/
def enter (names : Names) : List Form → Names
  | [] => names
  | node :: rest =>
    match node.definedName? with
    | none => enter names rest
    | some n =>
      enter (if (Json.lookup n names).isSome then names else names ++ [(n, node.toJson)]) rest

theorem enter_append (names : Names) (xs ys : List Form) :
    enter names (xs ++ ys) = enter (enter names xs) ys := by
  induction xs generalizing names with
  | nil => rfl
  | cons node rest ih =>
    rw [List.cons_append, enter, enter]
    cases node.definedName? with
    | none => exact ih names
    | some n => exact ih _

/-- What is found under a name is what was there, and else the first definition of the name. -/
theorem lookup_enter (n : String) (names : Names) (nodes : List Form) :
    Json.lookup n (enter names nodes) =
      (Json.lookup n names).or
        ((nodes.find? fun node => node.definedName? == some n).map Form.toJson) := by
  induction nodes generalizing names with
  | nil => simp [enter]
  | cons node rest ih =>
    rw [enter, List.find?_cons]
    cases defines : node.definedName? with
    | none =>
      have : ((none : Option String) == some n) = false := rfl
      rw [this]
      exact ih names
    | some m =>
      dsimp only
      rw [ih]
      by_cases same : m = n
      · subst same
        rw [beq_self_eq_true]
        cases there : Json.lookup m names with
        | some v => simp [there]
        | none => simp [there, Json.lookup_append]
      · have differ : (some m == some n) = false := by simpa using same
        rw [differ]
        by_cases there : (Json.lookup m names).isSome
        · rw [if_pos there]
        · rw [if_neg there, Json.lookup_append, Json.lookup_cons, if_neg same, Json.lookup_nil,
            Option.or_none]

/-! ## Collecting -/

theorem collectUnder_eq (key : String) (members : List (String × Json)) :
    collectUnder key members =
      match Json.lookup key members with
      | none => stopCollecting (.missingKey key)
      | some v => collect v := by
  induction members with
  | nil => rw [collectUnder, Json.lookup_nil]
  | cons m rest ih =>
    obtain ⟨k, v⟩ := m
    rw [collectUnder, Json.lookup_cons, ih]
    split <;> rfl

theorem collectFieldsOf_none {members : List (String × Json)}
    (absent : Json.lookup "fields" members = none) : collectFieldsOf members = pure () := by
  induction members with
  | nil => rw [collectFieldsOf]
  | cons m rest ih =>
    obtain ⟨k, v⟩ := m
    rw [Json.lookup_cons] at absent
    split at absent
    · cases absent
    · next other =>
      rw [collectFieldsOf.eq_def]
      dsimp only
      rw [if_neg other]
      exact ih absent

theorem collectFieldsOf_some {members : List (String × Json)} {fields : List Json}
    (found : Json.lookup "fields" members = some (.arr fields)) :
    collectFieldsOf members = collectFields fields := by
  induction members with
  | nil => cases found
  | cons m rest ih =>
    obtain ⟨k, v⟩ := m
    rw [Json.lookup_cons] at found
    rw [collectFieldsOf.eq_def]
    dsimp only
    split at found
    · next key =>
      cases found
      rw [if_pos key]
    · next other =>
      rw [if_neg other]
      exact ih found

/-- The value of a named type is entered under its name before its fields are. -/
theorem collect_named {kind full : String} {members : List (String × Json)}
    (typed : Json.lookup "type" members = some (.str kind)) (named : Schema.isNamedKind kind = true)
    (found : Json.lookup "name" members = some (.str full)) :
    collect (.obj members) = (do
      addName (.str full) (.obj members)
      collectFieldsOf members) := by
  have kinds : isNamedType (some (.str kind)) = .ok true := by rw [isNamedType, named]
  rw [collect, typed, kinds, found]

theorem collect_container {c : Container} {members : List (String × Json)}
    (typed : Json.lookup "type" members = some (.str c.word)) :
    collect (.obj members) = collectUnder c.key members := by
  have unnamed : isNamedType (some (.str c.word)) = .ok false := by cases c <;> rfl
  rw [collect, typed, unnamed]
  cases c <;> rfl

theorem collect_primitive {p : String} {members : List (String × Json)}
    (typed : Json.lookup "type" members = some (.str p)) (primitive : Schema.isPrimitive p = true) :
    collect (.obj members) = pure () := by
  have unnamed : isNamedType (some (.str p)) = .ok false := by
    rw [isNamedType, Schema.primitive_unnamed p (List.contains_iff_mem.1 primitive)]
  rw [collect, typed, unnamed]
  dsimp only
  split
  · next h =>
    cases h
    cases primitive
  · next h =>
    cases h
    cases primitive
  · rfl

/-- Collecting a value enters the definitions among some types. -/
def Collects (v : Json) (nodes : List Form) : Prop :=
  ∀ names, collect v names = .ok ((), enter names nodes)

theorem collectBranches_map {branches : List Form}
    (each : ∀ b ∈ branches, Collects b.toJson b.nodes) (names : Names) :
    collectBranches (branches.map Form.toJson) names =
      .ok ((), enter names (branches.flatMap Form.nodes)) := by
  induction branches generalizing names with
  | nil =>
    rw [List.map_nil, collectBranches]
    rfl
  | cons branch rest ih =>
    rw [List.map_cons, collectBranches, Run.bind_of_ok (each branch List.mem_cons_self names),
      ih (fun b mem => each b (List.mem_cons_of_mem _ mem)), List.flatMap_cons, enter_append]

theorem collectFields_map {fields : List (FieldHead × Form)}
    (each : ∀ f ∈ fields, Collects f.2.toJson f.2.nodes) (names : Names) :
    collectFields (fields.map fun f => f.1.toJson f.2.toJson) names =
      .ok ((), enter names (fields.flatMap fun f => f.2.nodes)) := by
  induction fields generalizing names with
  | nil =>
    rw [List.map_nil, collectFields]
    rfl
  | cons field rest ih =>
    have typed : Json.lookup "type" (Schema.fieldMembers field.1 field.2.toJson) =
        some field.2.toJson := Schema.lookup_fieldMembers _ _ _
    have first : collectUnder "type" (Schema.fieldMembers field.1 field.2.toJson) names =
        .ok ((), enter names field.2.nodes) := by
      rw [collectUnder_eq, typed]
      exact each field List.mem_cons_self names
    rw [List.map_cons]
    change collectFields (.obj (Schema.fieldMembers field.1 field.2.toJson) :: _) names = _
    rw [collectFields, Run.bind_of_ok first, ih (fun f mem => each f (List.mem_cons_of_mem _ mem)),
      List.flatMap_cons, enter_append]

theorem collects_container (c : Container) {part : Form} (inside : Collects part.toJson part.nodes) :
    Collects (c.form part).toJson (c.form part).nodes := by
  intro names
  have held : Json.lookup c.key (Schema.partMembers c.word c.key part.toJson) =
      some part.toJson := by
    rw [Schema.partMembers, Json.lookup_cons, if_neg c.type_ne_key, Json.lookup_cons, if_pos rfl]
  rw [Schema.toJson_container, collect_container rfl, collectUnder_eq, held, Schema.nodes_container,
    enter, Schema.definedName?_container]
  exact inside names

/-- A named type enters itself and then the definitions of its fields. -/
theorem collects_named {form : Form} {kind full : String} {members : List (String × Json)}
    {parts : List Form} (nodes : form.nodes = form :: parts)
    (value : form.toJson = .obj members) (defines : form.definedName? = some full)
    (typed : Json.lookup "type" members = some (.str kind)) (named : Schema.isNamedKind kind = true)
    (found : Json.lookup "name" members = some (.str full))
    (fields : ∀ names, collectFieldsOf members names = .ok ((), enter names parts)) :
    Collects form.toJson form.nodes := by
  intro names
  rw [value, collect_named typed named found, nodes, enter, defines]
  show (addName (.str full) (.obj members) >>= fun _ => collectFieldsOf members) names = _
  rw [Run.bind_of_ok rfl, fields, value]

/-- Collecting the value of a form without defects enters the definitions in the form. -/
theorem collect_toJson (form : Form) (tidy : ∀ node ∈ form.nodes, node.Tidy) :
    Collects form.toJson form.nodes := by
  induction form using Form.induct with
  | name n =>
    intro names
    rw [Form.toJson, collect]
    · rfl
    all_goals
      intros
      rename_i h
      cases h
  | annotated p attributes =>
    intro names
    have primitive : Schema.isPrimitive p = true := tidy _ (Form.self_mem_nodes _)
    rw [Form.toJson, collect_primitive rfl primitive]
    rfl
  | union branches ih =>
    intro names
    have each : ∀ b ∈ branches, Collects b.toJson b.nodes := fun b mem =>
      ih b mem fun node inside => tidy node (Form.mem_nodes_trans
        (Form.branch_mem_nodes (Form.self_mem_nodes _) mem) inside)
    rw [Schema.toJson_union, collect, collectBranches_map each, Form.nodes_union, enter]
    rfl
  | array items ih =>
    exact collects_container .array (ih fun node mem => tidy node (List.mem_cons_of_mem _ mem))
  | map values ih =>
    exact collects_container .map (ih fun node mem => tidy node (List.mem_cons_of_mem _ mem))
  | record isError full aliases fields ih =>
    have each : ∀ f ∈ fields, Collects f.2.toJson f.2.nodes := fun f mem =>
      ih f mem fun node inside => tidy node (Form.mem_nodes_trans
        (Form.type_mem_nodes (Form.self_mem_nodes _) mem) inside)
    have named : Schema.isNamedKind (Schema.recordKind isError) = true := by
      cases isError <;> decide
    refine collects_named (Form.nodes_record isError full aliases fields)
      (Schema.toJson_record isError full aliases fields) rfl
      (Schema.lookup_recordMembers _ _ _ _ _) named (Schema.lookup_recordMembers _ _ _ _ _)
      fun names => ?_
    have found : Json.lookup "fields" (Schema.recordMembers isError full aliases fields) =
        some (.arr (fields.map fun f => f.1.toJson f.2.toJson)) :=
      Schema.lookup_recordMembers _ _ _ _ _
    rw [collectFieldsOf_some found]
    exact collectFields_map each names
  | enumeration full aliases symbols default =>
    refine collects_named rfl rfl rfl (Schema.lookup_enumMembers _ _ _ _ _) rfl
      (Schema.lookup_enumMembers _ _ _ _ _) fun names => ?_
    have absent : Json.lookup "fields" (Schema.enumMembers full aliases symbols default) = none :=
      Schema.lookup_enumMembers _ _ _ _ _
    exact congrFun (collectFieldsOf_none absent) names
  | fixed full aliases size attributes =>
    have kept : ∀ m ∈ attributes, m.1 ∈ Form.fixedKeys := tidy _ (Form.self_mem_nodes _)
    refine collects_named rfl rfl rfl (Schema.lookup_fixedMembers _ _ _ kept (by decide)) rfl
      (Schema.lookup_fixedMembers _ _ _ kept (by decide)) fun names => ?_
    have absent : Json.lookup "fields" (Schema.fixedMembers full aliases size attributes) = none :=
      Schema.lookup_fixedMembers _ _ _ kept (by decide)
    exact congrFun (collectFieldsOf_none absent) names

/-! ## Names and references -/

/-- Collecting the names of a form without defects succeeds. -/
theorem namesOf_toJson {form : Form} (tidy : ∀ node ∈ form.nodes, node.Tidy) :
    namesOf form.toJson = .ok (enter [] form.nodes) := by
  show ((collect form.toJson) []).map (·.2) = _
  rw [collect_toJson form tidy]
  rfl

/-- A look-up among the names of a form finds the first definition. -/
theorem lookup_names (form : Form) (n : String) :
    Json.lookup n (enter [] form.nodes) = (form.definition? n).map Form.toJson := by
  rw [lookup_enter]
  rfl

/-- A reference stands for the same definition in the value and in the form. -/
theorem resolveIn_toJson (root node : Form) :
    resolveIn (enter [] root.nodes) node.toJson = (root.resolve node).toJson := by
  cases node with
  | name n =>
    rw [Form.toJson, resolveIn, Form.resolve, lookup_names]
    split
    · rfl
    · cases root.definition? n with
      | none => rfl
      | some definition => rfl
  | _ => rfl

end AvroRegistry.Compatibility
