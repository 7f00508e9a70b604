import AvroRegistry.Proofs.Scopes
import AvroRegistry.Store.Config
import Mathlib.Data.List.Nodup

/-!
# Modes and the rows they are kept in

A store of modes is kept in rows if each row is for the global mode or for a scope, no key has two
rows, and what the rows say is what the store says: the mode of a scope is that of its row, and the
global mode is that of its row or else the default. Every change of the store and the change of the
rows that goes with it keep this.
-/

namespace AvroRegistry.Config

open Compatibility (Mode)

/-- The name of the mode under a key. -/
def modeAt (key : String) (rows : List ConfigRow) : Option String :=
  (rows.find? fun r => r.key == some key).map (·.mode)

/-- A row that a registry writes: it names a mode, and is for the global mode or for a scope. -/
structure Known (row : ConfigRow) : Prop where
  mode : ∃ mode : Mode, row.mode = mode.name
  key : row.key = some globalKey ∨ ∃ scope : Scope, row.key = some scope.render

/-- A store of modes is kept in rows, over a default for the global mode. -/
structure Kept (default : Mode) (rows : List ConfigRow) (c : Config) : Prop where
  keys : (rows.map (·.key)).Nodup
  known : ∀ row ∈ rows, Known row
  global : c.global.name = (modeAt globalKey rows).getD default.name
  overrides : ∀ scope : Scope, (c.override? scope).map Mode.name = modeAt scope.render rows

theorem kept_empty (default : Mode) : Kept default [] { global := default } :=
  ⟨List.nodup_nil, by simp, rfl, fun _ => rfl⟩

/-- Two modes have two names. -/
theorem name_injective {a b : Mode} (same : a.name = b.name) : a = b := by
  have named := Mode.ofText?_name a
  rw [same, Mode.ofText?_name b] at named
  cases named
  rfl

theorem render_ne_globalKey (scope : Scope) : scope.render ≠ globalKey :=
  scope.render_ne (by decide)

/-! ## Rows after a change -/

theorem modeAt_here {key : String} {row : ConfigRow} (rows : List ConfigRow)
    (here : row.key = some key) : modeAt key (row :: rows) = some row.mode := by
  unfold modeAt
  rw [List.find?_cons, here, beq_self_eq_true]
  rfl

theorem modeAt_later {key : String} {row : ConfigRow} (rows : List ConfigRow)
    (other : row.key ≠ some key) : modeAt key (row :: rows) = modeAt key rows := by
  unfold modeAt
  rw [List.find?_cons, beq_eq_false_iff_ne.2 other]

theorem modeAt_eq_none {key : String} {rows : List ConfigRow}
    (absent : some key ∉ rows.map (·.key)) : modeAt key rows = none := by
  unfold modeAt
  rw [Option.map_eq_none_iff, List.find?_eq_none]
  intro row mem same
  exact absent ((beq_iff_eq.1 same) ▸ List.mem_map_of_mem mem)

/-- The row of a key holds the mode that was set. -/
theorem modeAt_setMode (key mode : String) (rows : List ConfigRow) :
    modeAt key (Tables.setMode (some key) mode rows) = some mode := by
  induction rows with
  | nil => exact modeAt_here [] rfl
  | cons row rows ih =>
    rw [Tables.setMode]
    by_cases here : row.key = some key
    · rw [if_pos here]
      exact modeAt_here rows rfl
    · rw [if_neg here, modeAt_later _ here]
      exact ih

/-- Every other row holds what it held. -/
theorem modeAt_setMode_other {key other : String} (differ : key ≠ other) (mode : String)
    (rows : List ConfigRow) :
    modeAt other (Tables.setMode (some key) mode rows) = modeAt other rows := by
  have apart : some key ≠ some other := fun same => differ (Option.some.inj same)
  induction rows with
  | nil => exact modeAt_later [] apart
  | cons row rows ih =>
    rw [Tables.setMode]
    by_cases here : row.key = some key
    · have apart' : row.key ≠ some other := here ▸ apart
      rw [if_pos here, modeAt_later rows apart']
      exact @modeAt_later other ⟨some key, mode⟩ rows apart
    · rw [if_neg here]
      by_cases there : row.key = some other
      · rw [modeAt_here _ there, modeAt_here _ there]
      · rw [modeAt_later _ there, modeAt_later _ there]
        exact ih

/-- Setting the mode of a key leaves the rows of all other keys as they are. -/
theorem others_setMode (key mode : String) (rows : List ConfigRow) :
    (Tables.setMode (some key) mode rows).filter (fun row => row.key != some key) =
      rows.filter fun row => row.key != some key := by
  induction rows with
  | nil => simp [Tables.setMode]
  | cons row rest ih =>
    rw [Tables.setMode]
    by_cases here : row.key = some key
    · rw [if_pos here, List.filter_cons_of_neg (by simp), List.filter_cons_of_neg (by simp [here])]
    · rw [if_neg here, List.filter_cons_of_pos (by simpa using here),
        List.filter_cons_of_pos (by simpa using here), ih]

/-- A key without a row gets one, and no key gets a second one. -/
theorem keys_setMode (key mode : String) (rows : List ConfigRow) :
    (Tables.setMode (some key) mode rows).map (·.key) =
      if some key ∈ rows.map (·.key) then rows.map (·.key) else rows.map (·.key) ++ [some key] := by
  induction rows with
  | nil => rfl
  | cons row rows ih =>
    rw [Tables.setMode]
    by_cases here : row.key = some key
    · rw [if_pos here, if_pos (by simp [here])]
      simp [here]
    · rw [if_neg here, List.map_cons, ih, List.map_cons]
      have same : some key ∈ row.key :: rows.map (·.key) ↔ some key ∈ rows.map (·.key) := by
        simp [Ne.symm here]
      by_cases there : some key ∈ rows.map (·.key)
      · rw [if_pos there, if_pos (same.2 there)]
      · rw [if_neg there, if_neg (mt same.1 there), List.cons_append]

theorem mem_setMode {key mode : String} {rows : List ConfigRow} {row : ConfigRow}
    (mem : row ∈ Tables.setMode (some key) mode rows) : row = ⟨some key, mode⟩ ∨ row ∈ rows := by
  induction rows with
  | nil => exact .inl (List.mem_singleton.1 mem)
  | cons first rows ih =>
    rw [Tables.setMode] at mem
    split at mem
    · rcases List.mem_cons.1 mem with new | old
      · exact .inl new
      · exact .inr (List.mem_cons_of_mem _ old)
    · rcases List.mem_cons.1 mem with rfl | later
      · exact .inr List.mem_cons_self
      · rcases ih later with new | old
        · exact .inl new
        · exact .inr (List.mem_cons_of_mem _ old)

theorem nodup_setMode {key mode : String} {rows : List ConfigRow}
    (keys : (rows.map (·.key)).Nodup) :
    ((Tables.setMode (some key) mode rows).map (·.key)).Nodup := by
  rw [keys_setMode]
  split
  · exact keys
  · next absent =>
    refine List.nodup_append.2 ⟨keys, List.nodup_singleton _, fun a ha b hb same => ?_⟩
    rw [List.mem_singleton.1 hb] at same
    exact absent (same ▸ ha)

/-- The row of a key that was removed is gone. -/
theorem modeAt_filter (key : String) (rows : List ConfigRow) :
    modeAt key (rows.filter fun r => r.key != some key) = none := by
  refine modeAt_eq_none fun mem => ?_
  obtain ⟨row, kept, same⟩ := List.mem_map.1 mem
  have other := (List.mem_filter.1 kept).2
  rw [same] at other
  simp at other

/-- Every other row is there. -/
theorem modeAt_filter_other {key other : String} (differ : key ≠ other) (rows : List ConfigRow) :
    modeAt other (rows.filter fun r => r.key != some key) = modeAt other rows := by
  induction rows with
  | nil => rfl
  | cons row rows ih =>
    by_cases here : row.key = some key
    · have apart : row.key ≠ some other := fun there =>
        differ (Option.some.inj (here.symm.trans there))
      rw [List.filter_cons_of_neg (by simp [here]), modeAt_later _ apart]
      exact ih
    · rw [List.filter_cons_of_pos (by simpa using here)]
      by_cases there : row.key = some other
      · rw [modeAt_here _ there, modeAt_here _ there]
      · rw [modeAt_later _ there, modeAt_later _ there]
        exact ih

/-! ## The store after a change -/

theorem override?_without (c : Config) (scope other : Scope) :
    (c.without scope).override? other = if scope = other then none else c.override? other := by
  unfold override? without
  dsimp only
  rw [List.find?_filter]
  by_cases same : scope = other
  · subst same
    rw [if_pos rfl, Option.map_eq_none_iff, List.find?_eq_none]
    simp
  · rw [if_neg same]
    congr 2
    funext o
    by_cases here : o.1 = other
    · simp [here, Ne.symm same]
    · simp [here]

theorem override?_withOverride (c : Config) (scope other : Scope) (mode : Mode) :
    (c.withOverride scope mode).override? other =
      if scope = other then some mode else c.override? other := by
  have before := c.override?_without scope other
  unfold override? at before ⊢
  unfold withOverride
  dsimp only
  rw [List.find?_append]
  by_cases same : scope = other
  · subst same
    rw [if_pos rfl, Option.map_eq_none_iff] at before
    rw [if_pos rfl, before]
    simp
  · rw [if_neg same] at before ⊢
    rw [← before]
    congr 1
    simp [same]

/-! ## Changes of both -/

variable {default : Mode} {rows : List ConfigRow} {c : Config}

theorem Kept.setGlobal (kept : Kept default rows c) (mode : Mode) :
    Kept default (Tables.setMode (some globalKey) mode.name rows) { c with global := mode } where
  keys := nodup_setMode kept.keys
  known row mem := by
    rcases mem_setMode mem with rfl | old
    · exact ⟨⟨mode, rfl⟩, .inl rfl⟩
    · exact kept.known row old
  global := by
    rw [modeAt_setMode]
    rfl
  overrides scope := by
    rw [modeAt_setMode_other (render_ne_globalKey scope).symm]
    exact kept.overrides scope

theorem Kept.setOverride (kept : Kept default rows c) (scope : Scope) (mode : Mode) :
    Kept default (Tables.setMode (some scope.render) mode.name rows)
      (c.withOverride scope mode) where
  keys := nodup_setMode kept.keys
  known row mem := by
    rcases mem_setMode mem with rfl | old
    · exact ⟨⟨mode, rfl⟩, .inr ⟨scope, rfl⟩⟩
    · exact kept.known row old
  global := by
    rw [modeAt_setMode_other (render_ne_globalKey scope)]
    exact kept.global
  overrides other := by
    rw [override?_withOverride]
    by_cases same : scope = other
    · subst same
      rw [if_pos rfl, modeAt_setMode]
      rfl
    · rw [if_neg same, modeAt_setMode_other fun written => same (Scope.render_injective written)]
      exact kept.overrides other

theorem Kept.clearOverride (kept : Kept default rows c) (scope : Scope) :
    Kept default (rows.filter fun r => r.key != some scope.render) (c.without scope) where
  keys := kept.keys.sublist (List.filter_sublist.map _)
  known row mem := kept.known row (List.mem_of_mem_filter mem)
  global := by
    rw [modeAt_filter_other (render_ne_globalKey scope)]
    exact kept.global
  overrides other := by
    rw [override?_without]
    by_cases same : scope = other
    · subst same
      rw [if_pos rfl, modeAt_filter]
      rfl
    · rw [if_neg same, modeAt_filter_other fun written => same (Scope.render_injective written)]
      exact kept.overrides other

end AvroRegistry.Config
