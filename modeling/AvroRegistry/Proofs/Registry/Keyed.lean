import AvroRegistry.Proofs.Registry.Abreast
import AvroRegistry.Proofs.Registry.Written
import AvroRegistry.Proofs.Storage.Owners
import AvroRegistry.Proofs.Store.Modes
import Mathlib.Data.Set.Card

/-!
# Written scopes as keys

A registry keeps the rows of a scope under the scope's writing, and lists scopes by their writings.
This is as good as keeping and listing the scopes themselves (`keys_faithful`): a writing is read as
its scope and nothing else is read at all; as many texts are listed as there are scopes with live
versions; and the file holds under each key what the registry knows of the owner of that key, of
which no operation on anything else changes a row, along whole runs and however often the file is
opened again.
-/

namespace AvroRegistry

open Compatibility (Mode)
open Step (fixes_pure fixes_throw fixes_of_looks)

/-! ## Whom operations are about -/

/-- Whose rows an operation can be about. -/
def Operation.owner? : Operation → Option Owner
  | .setGlobalMode _ => some .global
  | op => op.scope?.map .scope

/-- Whose rows a deed can be about. Opening a file again is about nobody's. -/
def Deed.owner? : Deed → Option Owner
  | .performed op _ => op.owner?
  | .reopened _ => none

/-! ## Rows in a file -/

/-- The tables that a volume has; where there are none, empty ones. -/
def Volume.tables : Volume → Tables
  | .database tables => tables.getD {}
  | _ => {}

/-- The rows of an owner in a file. -/
def Storage.rowsOf (owner : Owner) (handle : Storage) : OwnedRows :=
  handle.volume.tables.rowsOf owner

/-- The rows of an owner in the file of a registry, if it has one. -/
def Registry.rowsOf (owner : Owner) (r : Registry) : Option OwnedRows :=
  r.storage.map (Storage.rowsOf owner)

namespace Storage

/-- Changes for one owner leave the rows of another one as they are. -/
theorem ignores_rowsOf {owner : Owner} {write : Tables → Except TableFailure Tables}
    (same : ∀ t t' : Tables, write t = .ok t' → t'.rowsOf owner = t.rowsOf owner) :
    Ignores (rowsOf owner) write := by
  intro handle t t' ready made
  show t'.rowsOf owner = handle.volume.tables.rowsOf owner
  rw [ready]
  exact same t t' made

theorem fixes_prepare (owner : Owner) : prepare.Fixes (rowsOf owner) := by
  intro handle
  obtain ⟨path, volume, patience, prepared⟩ := handle
  cases prepared with
  | true => rfl
  | false => cases volume <;> rfl

end Storage

namespace Registry

section

variable {owner : Owner} {op : Operation} {deed : Deed} {default : Mode} {r r' start : Registry}
  {history : List Deed}

/-- A scope that arguments name is not another one. -/
theorem ne_of_placed {subject : Json} {part : Argument Part} {scope : Scope}
    (placed : scopeOf subject part = .ok scope)
    (other : (scopeOf subject part).toOption.map Owner.scope ≠ some owner) :
    owner ≠ .scope scope := by
  rintro rfl
  rw [placed] at other
  exact other rfl

/-- What an operation writes leaves the rows of everybody as they are whom it is not about. -/
theorem ignores_of_writes (other : op.owner? ≠ some owner)
    {write : Tables → Except TableFailure Tables} (writes : op.Writes write) :
    Storage.Ignores (Storage.rowsOf owner) write := by
  refine Storage.ignores_rowsOf fun t t' made => ?_
  cases writes with
  | store draft => exact Tables.rowsOf_insertSchema made owner
  | append placed => exact Tables.rowsOf_insertVersion made (ne_of_placed placed other)
  | delete placed number => exact Tables.rowsOf_markDeleted made (ne_of_placed placed other)
  | deleteAll placed number => exact Tables.rowsOf_markDeleted made (ne_of_placed placed other)
  | setGlobal mode =>
    have apart : owner ≠ .global := fun same => other (congrArg some same.symm)
    exact Tables.rowsOf_upsertConfig (a := .global) made apart
  | @setOverride _ _ _ scope placed mode =>
    exact Tables.rowsOf_upsertConfig (a := .scope scope) made (ne_of_placed placed other)
  | @clearOverride _ _ scope placed =>
    exact Tables.rowsOf_deleteConfig (a := .scope scope) made (ne_of_placed placed other)

/-- An operation leaves the rows of everybody as they are whom it is not about. -/
theorem rowsOf_perform (other : op.owner? ≠ some owner) : (perform op).Fixes (rowsOf owner) :=
  fixes_perform_of_writes fun _ writes => ignores_of_writes other writes

/-! ## Opening a file again -/

theorem fixes_load (default : Mode) (owner : Owner) :
    (load default).Fixes (Storage.rowsOf owner) := by
  have prepared := Storage.fixes_prepare owner
  have found : ∀ table, (Storage.access table).Fixes (Storage.rowsOf owner) := fun table =>
    fixes_of_looks (Storage.looks_access table)
  have schemas : Schemas.recover.Fixes (Storage.rowsOf owner) := by
    refine prepared.bind fun _ => ((found "schemas").map _).bind fun rows => ?_
    split
    · exact fixes_pure _
    · exact fixes_throw _
  have versions : Versions.recover.Fixes (Storage.rowsOf owner) := by
    refine prepared.bind fun _ => ((found "subject_versions").map _).bind fun rows => ?_
    split
    · exact fixes_pure _
    · exact fixes_throw _
  have config : (Config.recover default).Fixes (Storage.rowsOf owner) := by
    refine prepared.bind fun _ => ((found "compat_config").map _).bind fun rows => ?_
    split
    · exact fixes_pure _
    · exact fixes_throw _
  exact schemas.bind fun _ => versions.bind fun _ => config.bind fun _ => fixes_pure _

/-- A registry that is opened finds the rows of everybody as they are in the file. -/
theorem rowsOf_openWith {handle : Storage} {opened : Option Storage}
    (opening : (openWith default).outcome (some handle) = (.ok r, opened)) (owner : Owner) :
    r.rowsOf owner = some (handle.rowsOf owner) := by
  have read := fixes_load default owner handle
  rw [openWith_some] at opening
  split at opening
  · next ran =>
    rw [ran] at read
    cases opening
    exact congrArg some read
  · cases opening

/-! ## Runs -/

/-- A deed leaves the rows of everybody as they are whom it is not about. -/
theorem Does.rowsOf_eq (does : Does r deed r') (other : deed.owner? ≠ some owner) :
    r'.rowsOf owner = r.rowsOf owner := by
  cases does with
  | perform op => exact rowsOf_perform other r
  | @reopen _ handle _ _ backed opening =>
    rw [rowsOf_openWith opening]
    unfold rowsOf
    rw [backed]
    rfl

/-- Along a run in which nothing is about an owner the rows of the owner stay as they are. -/
theorem Run.rowsOf_eq (run : Run start history r)
    (others : ∀ deed ∈ history, deed.owner? ≠ some owner) : r.rowsOf owner = start.rowsOf owner := by
  induction run with
  | start => rfl
  | step before does ih =>
    have last := does.rowsOf_eq (others _ (List.mem_append_right _ List.mem_cons_self))
    exact last.trans (ih fun deed mem => others deed (List.mem_append_left _ mem))

/-! ## What is kept under a key -/

/-- A file holds under each key what a registry knows of its owner. The default is the one that the
registry was last opened with. -/
structure FiledByKey (default : Mode) (r : Registry) (t : Tables) : Prop where
  /-- Under the key of a scope stand its versions. -/
  versions : ∀ scope : Scope,
    (t.rowsOf (.scope scope)).versions.Perm ((r.versions.ofScope scope).map Versions.row)
  /-- Under the key of a scope stands the mode of its own, if it has one. -/
  override : ∀ scope : Scope, (t.rowsOf (.scope scope)).modes =
    ((r.config.override? scope).map fun mode => ConfigRow.mk scope.render mode.name).toList
  /-- Under the key of the global mode stands the global mode, unless it is the default. -/
  global : (t.rowsOf .global).modes = [⟨globalKey, r.config.global.name⟩] ∨
    (t.rowsOf .global).modes = [] ∧ r.config.global = default
  /-- The row of a version has one owner. -/
  versionOwner : ∀ row ∈ t.versions, ∃! owner, row ∈ (t.rowsOf owner).versions
  /-- The row of a mode has one owner. -/
  modeOwner : ∀ row ∈ t.config, ∃! owner, row ∈ (t.rowsOf owner).modes

/-- What a file holds for a registry is filed by keys. -/
theorem filedByKey_of_holds {t : Tables} (holds : t.Holds default r.schemas r.versions r.config) :
    FiledByKey default r t where
  versions scope := by
    obtain ⟨rows, perm, written⟩ := holds.versions
    have kept : (t.rowsOf (.scope scope)).versions =
        (rows.filter fun v => v.scope == scope).map Versions.row := by
      show t.versions.filter _ = _
      rw [written, List.filter_map]
      refine congrArg (List.map Versions.row) (List.filter_congr fun v _ => ?_)
      show (v.scope.render == scope.render) = (v.scope == scope)
      rw [Bool.eq_iff_iff, beq_iff_eq, beq_iff_eq]
      exact ⟨Scope.render_injective, congrArg Scope.render⟩
    rw [kept]
    exact (perm.filter _).map _
  override scope := by
    show t.config.filter _ = _
    rw [Tables.filter_key_eq _ holds.config.keys]
    show ((Config.modeAt scope.render t.config).map _).toList = _
    rw [← holds.config.overrides scope, Option.map_map]
    rfl
  global := by
    have said := holds.config.global
    show t.config.filter _ = _ ∨ t.config.filter _ = _ ∧ _
    rw [Tables.filter_key_eq _ holds.config.keys]
    show ((Config.modeAt globalKey t.config).map _).toList = _ ∨
      ((Config.modeAt globalKey t.config).map _).toList = [] ∧ _
    cases found : Config.modeAt globalKey t.config with
    | none =>
      rw [found] at said
      exact .inr ⟨rfl, Config.name_injective said⟩
    | some name =>
      rw [found] at said
      rw [said]
      exact .inl rfl
  versionOwner row mem :=
    ⟨.scope row.scope, Tables.mem_versions_rowsOf.2 ⟨mem, rfl⟩, fun _ found =>
      (Tables.mem_versions_rowsOf.1 found).2⟩
  modeOwner row mem := by
    obtain ⟨owner, keyed⟩ : ∃ owner : Owner, row.key = some owner.key := by
      rcases (holds.config.known row mem).key with keyed | ⟨scope, keyed⟩
      · exact ⟨.global, keyed⟩
      · exact ⟨.scope scope, keyed⟩
    refine ⟨owner, Tables.mem_modes_rowsOf.2 ⟨mem, keyed⟩, fun other found => ?_⟩
    have there := (Tables.mem_modes_rowsOf.1 found).2
    exact Owner.key_injective (Option.some.inj (there.symm.trans keyed))

/-- What the file of a registry that can come about holds is filed by keys. -/
theorem Reachable.filedByKey (reachable : Reachable default r) {handle : Storage} {t : Tables}
    (backed : r.storage = some handle) (ready : handle.volume = .database (some t)) :
    FiledByKey default r t := by
  obtain ⟨t', ready', holds⟩ := (reachable.sound.file handle backed).tables
  cases ready.symm.trans ready'
  exact filedByKey_of_holds holds

/-! ## What is listed -/

theorem perform_subjects (r : Registry) :
    (perform .subjects).outcome r =
      (.ok (.subjects (Json.sortTexts (r.versions.liveScopes.map Scope.render))), r) := rfl

/-- The texts that are listed are the writings of the scopes with live versions, and there are as
many of them as there are such scopes. -/
structure Lists (r : Registry) (names : List String) : Prop where
  once : names.Nodup
  live : ∀ name, name ∈ names ↔ ∃ scope, r.versions.history scope ≠ [] ∧ scope.render = name
  count : names.length = {scope | r.versions.history scope ≠ []}.ncard

theorem lists_subjects (r : Registry) :
    r.Lists (Json.sortTexts (r.versions.liveScopes.map Scope.render)) := by
  have listed : (Json.sortTexts (r.versions.liveScopes.map Scope.render)).Perm
      (r.versions.liveScopes.map Scope.render) := List.mergeSort_perm _ _
  have once : r.versions.liveScopes.Nodup := Versions.nodup_scopesOf _
  refine ⟨listed.nodup_iff.2 (once.map fun _ _ => Scope.render_injective), fun name => ?_, ?_⟩
  · rw [listed.mem_iff, List.mem_map]
    exact exists_congr fun scope => and_congr_left fun _ => Versions.mem_liveScopes
  · have scopes : {scope | r.versions.history scope ≠ []} =
        (r.versions.liveScopes.toFinset : Set Scope) := by
      ext scope
      rw [Finset.mem_coe, List.mem_toFinset]
      exact Versions.mem_liveScopes.symm
    rw [listed.length_eq, List.length_map, scopes, Set.ncard_coe_finset,
      List.toFinset_card_of_nodup once]

/-! ## Faithful keys -/

/-- Scopes in writing are as good as the scopes themselves. -/
structure FaithfulKeys : Prop where
  /-- A scope that was written down is read back. -/
  read : ∀ scope : Scope, Scope.parse scope.render = .ok scope
  /-- A text that is read as a scope is the writing of that scope. -/
  written : ∀ text scope, Scope.parse text = .ok scope → scope.render = text
  /-- The texts that are read as scopes are the writings of scopes. -/
  readable : ∀ text,
    (∃ scope, Scope.parse text = .ok scope) ↔ ∃ scope : Scope, scope.render = text
  /-- Two scopes are written differently. -/
  distinct : Function.Injective Scope.render
  /-- No scope is written like the key of the global mode. -/
  reserved : ∀ scope : Scope, scope.render ≠ globalKey
  /-- Every registry lists its scopes with live versions, each once. -/
  listed : ∀ r : Registry, ∃ names,
    (perform .subjects).outcome r = (.ok (.subjects names), r) ∧ r.Lists names
  /-- Two scopes have no row in common, nor has a scope one with the global mode. -/
  apart : ∀ (t : Tables) (a b : Owner), a ≠ b →
    (t.rowsOf a).versions.Disjoint (t.rowsOf b).versions ∧
      (t.rowsOf a).modes.Disjoint (t.rowsOf b).modes
  /-- The row that a number of a scope is found in, or stands in the way of, is a row of that
  scope. -/
  found : ∀ scope number row, Tables.isRowOf scope number row = true → row.scope = scope
  /-- What is done for others leaves the rows of a scope as they are, and that of the global mode,
  along every run and in every file. -/
  spared : ∀ start history r owner, Run start history r →
    (∀ deed ∈ history, deed.owner? ≠ some owner) → r.rowsOf owner = start.rowsOf owner
  /-- Where modes are read back, those of scopes are read from the rows of these scopes, and the
  global mode from its own. -/
  recovered : ∀ c rows d, Config.recoverFrom c rows = .ok d → ∀ owner,
    d.modeFor? owner = (Config.namedUnder owner rows).getLast?.or (c.modeFor? owner)
  /-- Modes can be read back exactly where every row names a mode and has an owner. -/
  recoverable : ∀ c rows,
    (∃ d, Config.recoverFrom c rows = .ok d) ↔ ∀ row ∈ rows, Config.Readable row
  /-- The file of a registry that can come about holds under each key what the registry knows of its
  owner, and nothing under any other key. -/
  filed : ∀ default r handle t, Reachable default r → r.storage = some handle →
    handle.volume = .database (some t) → FiledByKey default r t

theorem keys_faithful : FaithfulKeys where
  read := Scope.parse_render
  written _ _ := Scope.render_of_parse
  readable := Scope.exists_parse_iff
  distinct _ _ := Scope.render_injective
  reserved := Config.render_ne_globalKey
  listed r := ⟨_, perform_subjects r, lists_subjects r⟩
  apart t _ _ differ := ⟨t.disjoint_versions differ, t.disjoint_modes differ⟩
  found _ _ _ := Tables.scope_of_isRowOf
  spared _ _ _ _ run others := run.rowsOf_eq others
  recovered _ _ _ read := Config.modeFor?_of_recoverFrom read
  recoverable _ _ := Config.recoverFrom_ok_iff
  filed _ _ _ _ reachable backed ready := reachable.filedByKey backed ready

/-- Two scopes are given modes and schemas, one of them with the writing of the other as its
subject. -/
def lookalikes : List Operation :=
  [.setGlobalMode (.typed .forward),
    .setModeOf (.str "__GLOBAL__") (.typed .key) (.typed .full),
    .setModeOf (.str "__GLOBAL__-key") (.typed .key) (.typed .none),
    .register (.str "__GLOBAL__") (.typed .key) (.str "\"string\""),
    .register (.str "__GLOBAL__-key") (.typed .key) (.str "\"int\"")]

/-- A registry on a new file. -/
def onFile : Registry := fresh .backward (some (Storage.ready { path := "registry.db" } {}))

/-- Both are read back and listed, each has a row of its own, and so has the global mode, although
the one scope reads like the other and both like the key of the global mode. -/
theorem keys_faithful_lookalikes :
    Config.disguised.subject = Config.plain.render ∧
      Scope.parse Config.disguised.render = .ok Config.disguised ∧
      (∃ names, (perform .subjects).outcome (onFile.after lookalikes) =
          (.ok (.subjects names), onFile.after lookalikes) ∧
        (onFile.after lookalikes).Lists names ∧
        names = ["__GLOBAL__-key", "__GLOBAL__-key-key"]) ∧
      Reachable .backward (onFile.after lookalikes) ∧
      ∃ handle t, (onFile.after lookalikes).storage = some handle ∧
        handle.volume = .database (some t) ∧
        (t.rowsOf (.scope Config.plain)).modes = [⟨"__GLOBAL__-key", "FULL"⟩] ∧
        (t.rowsOf (.scope Config.disguised)).modes = [⟨"__GLOBAL__-key-key", "NONE"⟩] ∧
        (t.rowsOf .global).modes = [⟨"__GLOBAL__", "FORWARD"⟩] := by
  have reachable : Reachable .backward (onFile.after lookalikes) :=
    .perform _ (.perform _ (.perform _ (.perform _ (.perform _
      (.file rfl rfl (openWith_new rfl rfl .backward).1)))))
  obtain ⟨handle, backed⟩ : ∃ handle, (onFile.after lookalikes).storage = some handle :=
    Option.isSome_iff_exists.1 (by decide +kernel)
  obtain ⟨t, ready, -⟩ := (reachable.sound.file handle backed).tables
  have filed := keys_faithful.filed _ _ _ _ reachable backed ready
  obtain ⟨names, answer, lists⟩ := keys_faithful.listed (onFile.after lookalikes)
  have modes : (onFile.after lookalikes).config.override? Config.plain = some .full ∧
      (onFile.after lookalikes).config.override? Config.disguised = some .none ∧
      (onFile.after lookalikes).config.global = .forward := by decide +kernel
  refine ⟨by decide, keys_faithful.read Config.disguised, ⟨names, answer, lists, ?_⟩, reachable,
    handle, t, backed, ready, ?_, ?_, ?_⟩
  · cases answer
    have written : (onFile.after lookalikes).versions.liveScopes.map Scope.render =
        ["__GLOBAL__-key", "__GLOBAL__-key-key"] := by decide +kernel
    rw [written]
    exact List.mergeSort_of_pairwise (by decide +kernel)
  · rw [filed.override, modes.1]
    rfl
  · rw [filed.override, modes.2.1]
    rfl
  · rcases filed.global with there | ⟨-, default⟩
    · rw [there, modes.2.2]
      rfl
    · rw [modes.2.2] at default
      cases default

end

end Registry

end AvroRegistry
