import AvroRegistry.Proofs.Compatibility.References

/-!
# A schema among other names

Normalizing a schema after others have been defined gives what it gives on its own, as long as every
type it comes to is direct: a direct word is resolved by its qualified name, and further names take
nothing from that. `Widens` says of a step that it does the same after more names, one run at a
time, because what is direct depends on the names that a run has defined.

So the branches of a union at the top have the forms they have as schemas of their own
(`union_of_branches`).
-/

namespace AvroRegistry.Schema

/-! ## Steps after more names -/

/-- A step that succeeds after some names gives the same after more of them, and ends with more. -/
def Widens {α : Type} (x : Normalizing α) (defined : List String) : Prop :=
  ∀ a after, x defined = .ok (a, after) → ∀ wider, defined ⊆ wider →
    ∃ after', x wider = .ok (a, after') ∧ after ⊆ after'

section

variable {α β : Type} {defined : List String}

theorem widens_pure (a : α) : Widens (pure a) defined := by
  intro b after ok wider sub
  cases ok
  exact ⟨wider, rfl, sub⟩

theorem widens_reject (d : Diagnosis) : Widens (reject d : Normalizing α) defined := by
  intro b after ok
  cases ok

theorem widens_breakOff (b : Breakdown) : Widens (breakOff b : Normalizing α) defined := by
  intro b after ok
  cases ok

theorem widens_lift (result : Except Breakdown α) : Widens (lift result) defined := by
  cases result with
  | error b => exact widens_breakOff b
  | ok a => exact widens_pure a

theorem widens_bind {x : Normalizing α} {f : α → Normalizing β} (first : Widens x defined)
    (then_ : ∀ a between, x defined = .ok (a, between) → Widens (f a) between) :
    Widens (x >>= f) defined := by
  intro b after ok wider sub
  obtain ⟨a, between, ran, ok⟩ := Run.bind_eq_ok.1 ok
  obtain ⟨between', ran', sub⟩ := first a between ran wider sub
  rw [Run.bind_of_ok ran']
  exact then_ a between ran b after ok between' sub

/-- A further name is defined as before. -/
theorem widens_define (full : String) :
    Widens (modify fun defined => full :: defined : Normalizing PUnit) defined := by
  intro b after ok wider sub
  rw [Run.modify_apply] at ok
  cases ok
  exact ⟨full :: wider, rfl, List.cons_subset_cons full sub⟩

end

/-! ## Types without parts -/

section

variable {space : String} {type : Json} {members : List (String × Json)} {defined : List String}

theorem widens_introduce : Widens (introduce space type members) defined := by
  by_cases unnamed : ∀ name, Json.lookup "name" members = some (.str name) → name = ""
  · rw [introduce_unnamed unnamed]
    exact widens_reject _
  · obtain ⟨name, absent⟩ := not_forall.1 unnamed
    obtain ⟨named, filled⟩ := Classical.not_imp.1 absent
    rw [introduce_named named filled]
    refine widens_bind (widens_lift _) fun aliases between _ => ?_
    exact widens_bind (widens_define _) fun _ _ _ => widens_pure _

theorem widens_enum : Widens (normalizeEnum space type members) defined := by
  unfold normalizeEnum
  refine widens_bind widens_introduce fun named between _ => ?_
  obtain ⟨full, aliases⟩ := named
  dsimp only
  split
  · exact widens_breakOff _
  · refine widens_bind (widens_lift _) fun items between _ => ?_
    split
    · exact widens_breakOff _
    · show Widens (if !Json.allDistinct items then _ else _ : Normalizing Form) between
      split
      · exact widens_reject _
      · exact widens_pure _

theorem widens_fixed : Widens (normalizeFixed space type members) defined := by
  unfold normalizeFixed
  refine widens_bind widens_introduce fun named between _ => ?_
  obtain ⟨full, aliases⟩ := named
  dsimp only
  split
  · exact widens_breakOff _
  · exact widens_pure _

/-- A direct word keeps its meaning. -/
theorem widens_direct {name : String} (direct : Direct space defined (.str name)) :
    Widens (resolve name space) defined := by
  intro form after ok wider sub
  have direct' : Direct space wider (.str name) := by
    rcases direct with primitive | found
    · exact .inl primitive
    · exact .inr (sub found)
  rw [resolve_of_direct direct] at ok
  cases ok
  exact ⟨wider, resolve_of_direct direct', sub⟩

theorem widens_other (direct : Direct space defined (.obj members))
    (typed : Json.lookup "type" members = some type) (plain : isConstructor type = false) :
    Widens (normalizeOther space type members) defined := by
  rcases direct type typed with constructor | ⟨p, rfl, primitive⟩
  · rw [plain] at constructor
    cases constructor
  · unfold normalizeOther
    dsimp only
    rw [if_pos primitive]
    exact widens_pure _

end

/-! ## Types with parts -/

/-- The way from every branch is clear, with the names defined before it. -/
def BranchesClear (space : String) (branches : List Json) (defined : List String) : Prop :=
  ∀ before branch after forms between, branches = before ++ branch :: after →
    normalizeBranches space before defined = .ok (forms, between) → Clear space between branch

/-- The way from the type of every field is clear, with the names defined before it. -/
def FieldsClear (full space : String) (seen items : List Json) (defined : List String) : Prop :=
  ∀ before field after fields between v, items = before ++ .obj field :: after →
    normalizeFields full space seen before defined = .ok (fields, between) →
    Json.lookup "type" field = some v → Clear space between v

section

variable {full space : String} {defined between : List String}

theorem BranchesClear.first {branch : Json} {rest : List Json}
    (clear : BranchesClear space (branch :: rest) defined) : Clear space defined branch :=
  clear [] branch rest [] defined rfl (by rw [normalizeBranches]; rfl)

theorem BranchesClear.rest {branch : Json} {rest : List Json} {form : Form}
    (clear : BranchesClear space (branch :: rest) defined)
    (read : normalizeType space branch defined = .ok (form, between)) :
    BranchesClear space rest between := by
  intro before branch' after forms between' split earlier
  refine clear (branch :: before) branch' after (form :: forms) between' (by rw [split]; rfl) ?_
  exact normalizeBranches_cons_eq_ok.2 ⟨form, between, forms, read, earlier, rfl⟩

variable {seen later : List Json} {field : List (String × Json)} {v : Json}

theorem FieldsClear.first (clear : FieldsClear full space seen (.obj field :: later) defined)
    (typed : Json.lookup "type" field = some v) : Clear space defined v :=
  clear [] field later [] defined v rfl (by rw [normalizeFields]; rfl) typed

theorem FieldsClear.rest {name : Json} {type : Form} {aliases : List Json}
    (clear : FieldsClear full space seen (.obj field :: later) defined)
    (named : Json.lookup "name" field = some name) (key : name.isKey = true)
    (fresh : name.isIn seen = false) (typed : Json.lookup "type" field = some v)
    (read : normalizeType space v defined = .ok (type, between))
    (sorted : fieldAliases field = .ok aliases) :
    FieldsClear full space (name :: seen) later between := by
  intro before f after fields end_ w split earlier typed'
  refine clear (.obj field :: before) f after ((headOf name aliases field, type) :: fields) end_ w
    (by rw [split]; rfl) ?_ typed'
  exact normalizeFields_cons_eq_ok.2 ⟨name, v, type, between, aliases, fields, named, key, fresh,
    typed, read, sorted, earlier, rfl⟩

end

theorem widens_branches {space : String} {branches : List Json} {defined : List String}
    (each : ∀ v ∈ branches, ∀ defined, Clear space defined v →
      Widens (normalizeType space v) defined)
    (clear : BranchesClear space branches defined) :
    Widens (normalizeBranches space branches) defined := by
  induction branches generalizing defined with
  | nil =>
    rw [normalizeBranches]
    exact widens_pure _
  | cons branch rest ih =>
    rw [normalizeBranches]
    have later := fun v mem => each v (List.mem_cons_of_mem _ mem)
    refine widens_bind (each branch List.mem_cons_self _ clear.first) fun form between read => ?_
    exact widens_bind (ih later (clear.rest read)) fun _ _ _ => widens_pure _

theorem widens_fields {full space : String} {seen items : List Json} {defined : List String}
    (each : ∀ field, .obj field ∈ items → ∀ v, Json.lookup "type" field = some v →
      ∀ defined, Clear space defined v → Widens (normalizeType space v) defined)
    (clear : FieldsClear full space seen items defined) :
    Widens (normalizeFields full space seen items) defined := by
  induction items generalizing seen defined with
  | nil =>
    rw [normalizeFields]
    exact widens_pure _
  | cons item rest ih =>
    intro fields after ok wider sub
    cases item with
    | obj field =>
      obtain ⟨name, v, type, between, aliases, others, named, key, fresh, typed, read, sorted,
        readRest, rfl⟩ := normalizeFields_cons_eq_ok.1 ok
      obtain ⟨between', read', sub⟩ := each field List.mem_cons_self v typed defined
        (clear.first typed) type between read wider sub
      obtain ⟨after', readRest', sub⟩ := ih (fun f mem => each f (List.mem_cons_of_mem _ mem))
        (clear.rest named key fresh typed read sorted) others after readRest between' sub
      exact ⟨after', normalizeFields_cons_eq_ok.2 ⟨name, v, type, between', aliases, others, named,
        key, fresh, typed, read', sorted, readRest', rfl⟩, sub⟩
    | _ =>
      rw [normalizeFields] at ok
      · cases ok
      · intro members h
        cases h

theorem widens_under {key space : String} {members : List (String × Json)} {defined : List String}
    (each : ∀ v, Json.lookup key members = some v → Widens (normalizeType space v) defined) :
    Widens (normalizeUnder key space members) defined := by
  rw [normalizeUnder_eq]
  cases found : Json.lookup key members with
  | none => exact widens_breakOff _
  | some v => exact each v found

theorem widens_record {isError : Bool} {space : String} {members : List (String × Json)}
    {defined : List String}
    (typed : Json.lookup "type" members = some (.str (recordKind isError)))
    (each : ∀ items, Json.lookup "fields" members = some (.arr items) →
      ∀ field, .obj field ∈ items → ∀ v, Json.lookup "type" field = some v →
      ∀ space defined, Clear space defined v → Widens (normalizeType space v) defined)
    (clear : Clear space defined (.obj members)) :
    Widens (normalizeType space (.obj members)) defined := by
  rw [normalizeType_record space typed]
  refine widens_bind widens_introduce fun named inner introduced => ?_
  obtain ⟨full, aliases⟩ := named
  dsimp only
  refine widens_bind ?_ fun _ _ _ => widens_pure _
  rw [normalizeFieldsOf_eq]
  split
  · exact widens_reject _
  · exact widens_reject _
  · next items _ found =>
    refine widens_fields (fun field mem v typed' => each _ found field mem v typed' _) ?_
    intro before field after fields between v split earlier fieldType s D w visits
    rw [split] at found
    exact clear s D w (.field typed introduced found earlier fieldType visits)
  · split
    · exact widens_breakOff _
    · exact widens_reject _

/-- A type of which every type that normalizing comes to is direct is normalized alike after more
names. -/
theorem widens_clear (v : Json) : ∀ {space : String} {defined : List String},
    Clear space defined v → Widens (normalizeType space v) defined := by
  induction v using Json.induct with
  | step v ih =>
    intro space defined clear
    have here : Direct space defined v := clear _ _ _ (.here _ _ _)
    cases v with
    | arr branches =>
      cases branches with
      | nil =>
        rw [normalizeType]
        exact widens_reject _
      | cons branch rest =>
        rw [normalizeType]
        · refine widens_bind (widens_branches (fun v mem defined clear => ?_) ?_)
            fun _ _ _ => widens_pure _
          · exact ih v (Json.sizeOf_item mem) clear
          · intro before b after forms between split earlier s D w visits
            rw [split] at clear
            exact clear s D w (.branch earlier visits)
        · intro h
          cases h
    | obj members =>
      have part : ∀ c : Container, Json.lookup "type" members = some (.str c.word) →
          Widens (normalizeType space (.obj members)) defined := by
        intro c typed
        rw [normalizeType_container space typed]
        refine widens_bind (widens_under fun v found => ?_) fun _ _ _ => widens_pure _
        exact ih v (Json.sizeOf_lookup found) fun s D w visits =>
          clear s D w (.part typed found visits)
      cases shape members with
      | untyped h =>
        rw [normalizeType_untyped space h]
        exact widens_reject _
      | record isError h =>
        refine widens_record h ?_ clear
        intro items found field mem v typed space defined clear
        have smaller : sizeOf v < sizeOf (Json.obj members) := by
          have := Json.sizeOf_lookup typed
          have := Json.sizeOf_item mem
          have := Json.sizeOf_lookup found
          omega
        exact ih v smaller clear
      | enumeration h =>
        rw [normalizeType_enumeration space h]
        exact widens_enum
      | fixed h =>
        rw [normalizeType_fixed space h]
        exact widens_fixed
      | array h => exact part .array h
      | map h => exact part .map h
      | other type h plain =>
        rw [normalizeType_other space h plain]
        split
        · exact widens_reject _
        · exact widens_other here h plain
    | str name =>
      rw [normalizeType_str]
      exact widens_direct here
    | _ =>
      rw [normalizeType]
      · exact widens_reject _
      all_goals
        intros
        rename_i h
        cases h

/-! ## The branches of a union at the top -/

/-- A value is brought into canonical form when it is submitted as a schema of its own. -/
def MadeOf (v : Json) (c : Canonical) : Prop :=
  ∃ schema raw, submitted schema = .ok (raw, v) ∧ canonicalize schema = .ok c

/-- After any names, an unmarked value is normalized to the form it has as a schema of its own. -/
theorem normalizeType_of_alone {v : Json} {c : Canonical} (unmarked : Unmarked v)
    (made : MadeOf v c) (defined : List String) :
    ∃ after, normalizeType "" v defined = .ok (c.form, after) := by
  obtain ⟨schema, raw, given, ok⟩ := made
  obtain ⟨accepted, normalized⟩ := Compatibility.canonicalize_eq_ok given ok
  obtain ⟨names, accepted⟩ := Compatibility.accept_eq accepted
  obtain ⟨after, normalized⟩ := Compatibility.normalize_eq normalized
  have clear : Clear "" [] v := (top_agrees v unmarked accepted).2
  obtain ⟨after', ok, -⟩ := widens_clear v clear c.form after normalized defined
    (List.nil_subset _)
  exact ⟨after', ok⟩

theorem forms_of_branches {vs : List Json} {cs : List Canonical}
    (unmarked : ∀ v ∈ vs, Unmarked v) (made : List.Forall₂ MadeOf vs cs) {defined : List String}
    {forms : List Form} {after : List String}
    (ok : normalizeBranches "" vs defined = .ok (forms, after)) :
    forms = cs.map Canonical.form := by
  induction made generalizing defined forms with
  | nil =>
    rw [normalizeBranches] at ok
    cases ok
    rfl
  | @cons v c vs cs first _ ih =>
    obtain ⟨form, between, others, read, rest, rfl⟩ := normalizeBranches_cons_eq_ok.1 ok
    obtain ⟨between', alone⟩ :=
      normalizeType_of_alone (unmarked v List.mem_cons_self) first defined
    cases alone.symm.trans read
    rw [ih (fun w mem => unmarked w (List.mem_cons_of_mem _ mem)) rest, List.map_cons]

/-- A union at the top whose branches are schemas of their own has their forms for branches. -/
theorem union_of_branches {schema : Json} {raw : String} {vs : List Json} {w : Canonical}
    {cs : List Canonical} (given : submitted schema = .ok (raw, .arr vs))
    (ok : canonicalize schema = .ok w) (unmarked : Unmarked (.arr vs))
    (made : List.Forall₂ MadeOf vs cs) : w.form = .union (cs.map Canonical.form) := by
  obtain ⟨-, normalized⟩ := Compatibility.canonicalize_eq_ok given ok
  obtain ⟨after, normalized⟩ := Compatibility.normalize_eq normalized
  obtain ⟨-, forms, same, read⟩ := normalizeUnion_eq_ok normalized
  cases unmarked with
  | union each => rw [same, forms_of_branches each made read]
  | word array _ => exact absurd rfl (array vs)

end AvroRegistry.Schema
