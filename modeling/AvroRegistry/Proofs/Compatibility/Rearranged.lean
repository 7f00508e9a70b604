import AvroRegistry.Proofs.Compatibility.Collected
import AvroRegistry.Proofs.Json.Reordered

/-!
# Names collected from rearranged schemas

The order of members does not change which named types are collected from a schema, nor in which
order: what is collected from a schema with its members arranged are the same names, each with its
definition arranged (`namesOf_arranged`), so that a reference leads to the same definition
(`resolveIn_arranged`).
-/

namespace AvroRegistry.Compatibility

open Json (arranged arrange mapMembers Everywhere Plain)

variable (l : Json.Layout)

/-- Names with their definitions arranged. -/
def arrangedNames (names : Names) : Names := mapMembers (arranged l) names

/-! ## Steps of collecting -/

/-- A step collects from arranged definitions what another one collects, arranged. -/
def Follows (arrangedStep step : Collecting) : Prop :=
  ∀ names, arrangedStep (arrangedNames l names) =
    (step names).map fun r => (r.1, arrangedNames l r.2)

theorem follows_pure : Follows l (pure ()) (pure ()) := fun _ => rfl

theorem follows_stop (b : Breakdown) : Follows l (stopCollecting b) (stopCollecting b) :=
  fun _ => rfl

theorem Follows.seq {x x' y y' : Collecting} (first : Follows l x' x) (second : Follows l y' y) :
    Follows l (do x'; y') (do x; y) := by
  intro names
  have before := first names
  cases gives : x names with
  | error b =>
    rw [gives] at before
    rw [Run.bind_of_error before, Run.bind_of_error gives]
    rfl
  | ok r =>
    rw [gives] at before
    rw [Run.bind_of_ok before, Run.bind_of_ok gives]
    exact second r.2

theorem follows_addName (name definition : Json) :
    Follows l (addName (arranged l name) (arranged l definition)) (addName name definition) := by
  intro names
  have keys : (arranged l name).requireKey = name.requireKey := by
    unfold Json.requireKey
    rw [Json.isKey_arranged]
  cases name with
  | str n =>
    show Except.ok ((), if (Json.lookup n (arrangedNames l names)).isSome then _ else _) =
      Except.ok ((), arrangedNames l (if (Json.lookup n names).isSome then _ else _))
    rw [arrangedNames, Json.lookup_mapMembers, Option.isSome_map]
    split
    · rfl
    · simp [arrangedNames, mapMembers]
  | arr items =>
    rw [Json.arranged_arr]
    rfl
  | obj members =>
    rw [Json.arranged_obj]
    rfl
  | _ => rfl

theorem isNamedType_arranged (type : Option Json) :
    isNamedType (type.map (arranged l)) = isNamedType type := by
  cases type with
  | none => rfl
  | some v => cases v <;> rfl

/-! ## Fields -/

theorem collectFieldsOf_other {members : List (String × Json)} {v : Json}
    (found : Json.lookup "fields" members = some v) (other : ∀ fields, v ≠ .arr fields) :
    collectFieldsOf members = if v.elements.toOption = some [] then pure ()
      else stopCollecting .wrongKind := by
  induction members with
  | nil => cases found
  | cons m rest ih =>
    obtain ⟨k, w⟩ := m
    rw [Json.lookup_cons] at found
    rw [collectFieldsOf.eq_def]
    dsimp only
    split at found
    · next key =>
      cases found
      rw [if_pos key]
      split
      · next fields => exact absurd rfl (other fields)
      · split
        · next empty => rw [empty, if_pos (by rfl)]
        · next some =>
          rw [if_neg]
          intro empty
          cases listed : v.elements with
          | error b =>
            rw [listed] at empty
            cases empty
          | ok items =>
            rw [listed] at empty
            cases empty
            exact some listed
    · next differs =>
      rw [if_neg differs]
      exact ih found

theorem elements_arranged {v : Json} (other : ∀ items, v ≠ .arr items) :
    (arranged l v).elements.toOption = some [] ↔ v.elements.toOption = some [] := by
  cases v with
  | arr items => exact absurd rfl (other items)
  | obj members =>
    have count := (Json.arrange_perm l members).length_eq
    simp only [Json.arranged_obj, Json.elements, Except.toOption, Option.some.injEq, Json.keys,
      mapMembers, ← List.length_eq_zero_iff, List.length_map, count]
  | _ => rfl

theorem follows_fieldsOf {members : List (String × Json)} (distinct : (Json.keys members).Nodup)
    (fields : ∀ items, Json.lookup "fields" members = some (.arr items) →
      Follows l (collectFields (items.map (arranged l))) (collectFields items)) :
    Follows l (collectFieldsOf (mapMembers (arranged l) (arrange l members)))
      (collectFieldsOf members) := by
  have looked := Json.lookup_arranged l distinct "fields"
  cases found : Json.lookup "fields" members with
  | none =>
    rw [found] at looked
    rw [collectFieldsOf_none found, collectFieldsOf_none looked]
    exact follows_pure l
  | some v =>
    rw [found, Option.map_some] at looked
    by_cases listed : ∃ items, v = .arr items
    · obtain ⟨items, rfl⟩ := listed
      rw [Json.arranged_arr] at looked
      rw [collectFieldsOf_some found, collectFieldsOf_some looked]
      exact fields items found
    · have other : ∀ items, v ≠ .arr items := fun items same => listed ⟨items, same⟩
      have other' : ∀ items, arranged l v ≠ .arr items := by
        intro items same
        cases v with
        | arr items => exact other items rfl
        | _ => cases same
      rw [collectFieldsOf_other found other, collectFieldsOf_other looked other',
        if_congr (elements_arranged l other) rfl rfl]
      split
      · exact follows_pure l
      · exact follows_stop l _

theorem follows_under {key : String} {members : List (String × Json)}
    (distinct : (Json.keys members).Nodup)
    (each : ∀ v, Json.lookup key members = some v →
      Follows l (collect (arranged l v)) (collect v)) :
    Follows l (collectUnder key (mapMembers (arranged l) (arrange l members)))
      (collectUnder key members) := by
  rw [collectUnder_eq, collectUnder_eq, Json.lookup_arranged l distinct]
  cases found : Json.lookup key members with
  | none => exact follows_stop l _
  | some v => exact each v found

theorem follows_fields {items : List Json}
    (each : ∀ members, .obj members ∈ items → (Json.keys members).Nodup ∧
      ∀ v, Json.lookup "type" members = some v → Follows l (collect (arranged l v)) (collect v)) :
    Follows l (collectFields (items.map (arranged l))) (collectFields items) := by
  induction items with
  | nil =>
    rw [List.map_nil, collectFields]
    exact follows_pure l
  | cons item rest ih =>
    have later := ih fun members mem => each members (List.mem_cons_of_mem _ mem)
    cases item with
    | obj members =>
      obtain ⟨distinct, typed⟩ := each members List.mem_cons_self
      rw [List.map_cons, Json.arranged_obj, collectFields, collectFields]
      exact (follows_under l distinct typed).seq l later
    | _ =>
      rw [List.map_cons, collectFields, collectFields]
      · exact follows_stop l _
      all_goals simp [arranged]

theorem follows_branches {branches : List Json}
    (each : ∀ b ∈ branches, Follows l (collect (arranged l b)) (collect b)) :
    Follows l (collectBranches (branches.map (arranged l))) (collectBranches branches) := by
  induction branches with
  | nil =>
    rw [List.map_nil, collectBranches]
    exact follows_pure l
  | cons branch rest ih =>
    obtain ⟨here, later⟩ := List.forall_mem_cons.1 each
    rw [List.map_cons, collectBranches, collectBranches]
    exact here.seq l (ih later)

/-! ## Names -/

/-- Collecting from an arranged schema follows collecting from the schema. -/
theorem collect_arranged (v : Json) :
    v.Everywhere Plain → Follows l (collect (arranged l v)) (collect v) := by
  induction v using Json.induct with
  | step v ih =>
    intro plain
    cases v with
    | arr branches =>
      rw [Json.arranged_arr, collect, collect]
      exact follows_branches l fun b mem =>
        ih b (Json.sizeOf_item mem) (((Json.everywhere_arr branches).1 plain).2 b mem)
    | obj members =>
      have distinct : (Json.keys members).Nodup := plain.self
      have inside : ∀ v, ∀ key, Json.lookup key members = some v →
          Follows l (collect (arranged l v)) (collect v) := fun v key found =>
        ih v (Json.sizeOf_lookup found) (plain.lookup found)
      have fields := follows_fieldsOf l distinct fun items found => follows_fields l
        fun ms mem => by
          have item := ((Json.everywhere_arr items).1 (plain.lookup found)).2 _ mem
          refine ⟨item.self, fun w typed => ih w ?_ (item.lookup typed)⟩
          have := Json.sizeOf_lookup typed
          have := Json.sizeOf_item mem
          have := Json.sizeOf_lookup found
          omega
      have whole := fun name => follows_addName l name (.obj members)
      simp only [Json.arranged_obj] at whole
      rw [Json.arranged_obj, collect, collect, Json.lookup_arranged l distinct,
        Json.lookup_arranged l distinct, isNamedType_arranged]
      cases isNamedType (Json.lookup "type" members) with
      | error b => exact follows_stop l b
      | ok named =>
        cases named with
        | true =>
          cases Json.lookup "name" members with
          | none => exact follows_stop l _
          | some name => exact (whole name).seq l fields
        | false =>
          cases Json.lookup "type" members with
          | none => exact follows_pure l
          | some type =>
            cases type with
            | str kind =>
              simp only [Option.map_some, arranged]
              split
              · next array =>
                cases array
                exact follows_under l distinct fun v found => inside v _ found
              · next map =>
                cases map
                exact follows_under l distinct fun v found => inside v _ found
              · exact follows_pure l
            | _ => exact follows_pure l
    | _ =>
      rw [collect]
      · exact follows_pure l
      all_goals simp [arranged]

theorem namesOf_arranged {v : Json} (plain : v.Everywhere Plain) :
    namesOf (arranged l v) = (namesOf v).map (arrangedNames l) := by
  have collected := collect_arranged l v plain []
  show (collect (arranged l v) (arrangedNames l [])).map (·.2) = ((collect v []).map (·.2)).map _
  rw [collected]
  cases collect v [] <;> rfl

theorem resolveIn_arranged (names : Names) (v : Json) :
    resolveIn (arrangedNames l names) (arranged l v) = arranged l (resolveIn names v) := by
  cases v with
  | str name =>
    show (if Schema.isPrimitive name then _
      else (Json.lookup name (arrangedNames l names)).getD _) =
      arranged l (if Schema.isPrimitive name then _ else _)
    rw [arrangedNames, Json.lookup_mapMembers]
    split
    · rfl
    · cases Json.lookup name names <;> rfl
  | arr items =>
    rw [Json.arranged_arr]
    exact (Json.arranged_arr l items).symm
  | obj members =>
    rw [Json.arranged_obj]
    exact (Json.arranged_obj l members).symm
  | _ => rfl

/-! ## Weight -/

theorem weightItems_map {f : Json → Json} {items : List Json}
    (each : ∀ v ∈ items, weight (f v) = weight v) :
    weightItems (items.map f) = weightItems items := by
  induction items with
  | nil => rfl
  | cons v rest ih =>
    obtain ⟨here, later⟩ := List.forall_mem_cons.1 each
    rw [List.map_cons, weightItems, weightItems, here, ih later]

theorem weightMembers_map {f : Json → Json} {members : List (String × Json)}
    (each : ∀ m ∈ members, weight (f m.2) = weight m.2) :
    weightMembers (mapMembers f members) = weightMembers members := by
  induction members with
  | nil => rfl
  | cons m rest ih =>
    obtain ⟨here, later⟩ := List.forall_mem_cons.1 each
    obtain ⟨k, v⟩ := m
    show weightMembers ((k, f v) :: mapMembers f rest) = _
    rw [weightMembers, weightMembers, here, ih later]

theorem weightMembers_perm {xs ys : List (String × Json)} (perm : xs.Perm ys) :
    weightMembers xs = weightMembers ys := by
  induction perm with
  | nil => rfl
  | cons m _ ih => simp only [weightMembers, ih]
  | swap m m' rest =>
    simp only [weightMembers]
    omega
  | trans _ _ first second => exact first.trans second

/-- The order of members does not change what a value weighs. -/
theorem weight_arranged (v : Json) : weight (arranged l v) = weight v := by
  induction v using Json.induct with
  | step v ih =>
    cases v with
    | arr items =>
      rw [Json.arranged_arr, weight, weight,
        weightItems_map fun w mem => ih w (Json.sizeOf_item mem)]
    | obj members =>
      rw [Json.arranged_obj, ← Json.arrange_mapMembers, weight, weight,
        weightMembers_perm (Json.arrange_perm l _),
        weightMembers_map fun m mem => ih m.2 (Json.sizeOf_member mem)]
    | _ => rfl

end AvroRegistry.Compatibility
