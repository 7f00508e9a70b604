import AvroRegistry.Proofs.Registry.Changes
import AvroRegistry.Proofs.Registry.Opening

/-!
# Modes along a run of a store

A store of modes is asked to set the global mode and to set or clear the mode of a scope, and its
file is opened again now and then, each time over a default of its own. Which mode is in effect for
a scope afterwards can be read off the log of the requests and their answers alone: the last word
counts (`Told.last_word`). A scope has the mode that was last set for it, unless that was cleared
since. Otherwise it has the global mode that was last set, however often the file has been opened
since, and if none ever was, the default that the store was last opened with.

The global mode and the modes of scopes stand in one table. `Filed` says what the table holds: it
keeps the store, and its row for the global mode is there exactly if a global mode was ever set,
which is why a later default does not come in its way.
-/

namespace AvroRegistry.Config

open Compatibility (Mode)

/-! ## Requests and their log -/

/-- A request to a store of modes. -/
inductive Request where
  | setGlobal (argument : Argument Mode)
  | setOverride (scope : Scope) (argument : Argument Mode)
  | clearOverride (scope : Scope)
  /-- Opens the file again, over a default. -/
  | reopen (default : Mode)

/-- Opens the file of a store again: what it held in memory is gone, and is read back. -/
def reopen (default : Mode) : Step (Backed Config) Unit := fun b =>
  match b.storage with
  | none => (.ok (), b)
  | some handle =>
    match (recover default).outcome handle.reopened with
    | (.ok c, opened) => (.ok (), ⟨c, some opened⟩)
    | (.error failure, opened) => (.error failure, ⟨b.memory, some opened⟩)

/-- Carries out a request; it gives the mode that was set. -/
def Request.carryOut : Request → Step (Backed Config) (Option Mode)
  | .setGlobal argument => do return some (← Config.setGlobal argument)
  | .setOverride scope argument => do return some (← Config.setOverride scope argument)
  | .clearOverride scope => do
    Config.clearOverride scope
    return none
  | .reopen default => do
    Config.reopen default
    return none

/-- Whether a store can be asked for something: without a file it cannot be opened again. -/
def Request.Possible (b : Backed Config) : Request → Prop
  | .reopen _ => b.storage.isSome = true
  | _ => True

/-- A request with the answer that it got. -/
structure Entry where
  request : Request
  answer : Except Failure (Option Mode)

/-- A store before the first request: one in memory, or one read from a file without modes. -/
inductive Unset (default : Mode) : Backed Config → Prop where
  | memory : Unset default ⟨{ global := default }, none⟩
  | file {handle opened : Storage} {tables : Option Tables} {c : Config}
      (database : handle.volume = .database tables) (empty : (tables.getD {}).config = [])
      (read : (recover default).outcome handle = (.ok c, opened)) :
      Unset default ⟨c, some opened⟩

/-- A log leads from one store to another one. -/
inductive Told (start : Backed Config) : List Entry → Backed Config → Prop where
  | start : Told start [] start
  | step {log : List Entry} {b : Backed Config} (request : Request)
      (before : Told start log b) (possible : request.Possible b) :
      Told start (log ++ [⟨request, (request.carryOut.outcome b).1⟩])
        (request.carryOut.outcome b).2

/-! ## What a log says -/

/-- What an entry says of a scope's own mode: which one it is, that there is none, or nothing. -/
def Entry.own? (scope : Scope) : Entry → Option (Option Mode)
  | ⟨.setOverride other _, .ok (some mode)⟩ => if other = scope then some (some mode) else none
  | ⟨.clearOverride other, .ok _⟩ => if other = scope then some none else none
  | _ => none

/-- The global mode that an entry says was set. -/
def Entry.global? : Entry → Option Mode
  | ⟨.setGlobal _, .ok (some mode)⟩ => some mode
  | _ => none

/-- The default that an entry says the file was opened over. -/
def Entry.default? : Entry → Option Mode
  | ⟨.reopen mode, .ok _⟩ => some mode
  | _ => none

/-- The last thing that a log says, of the things that its entries may say. -/
def last {α : Type} (said : Entry → Option α) (log : List Entry) : Option α :=
  (log.filterMap said).getLast?

/-- The mode of a scope's own: the last one set for it, unless it was cleared since. -/
def ownOf (scope : Scope) (log : List Entry) : Option Mode :=
  (last (Entry.own? scope) log).getD none

/-- The default of the last opening, the first one included. -/
def defaultOf (default : Mode) (log : List Entry) : Mode := (last Entry.default? log).getD default

/-- The mode of scopes without their own: the global mode last set, or else the default of the last
opening. -/
def globalOf (default : Mode) (log : List Entry) : Mode :=
  (last Entry.global? log).getD (defaultOf default log)

/-- The mode in effect for a scope. -/
def effectiveOf (default : Mode) (scope : Scope) (log : List Entry) : Mode :=
  (ownOf scope log).getD (globalOf default log)

/-- The answer that a request gets. -/
def Request.answer : Request → Except Failure (Option Mode)
  | .setGlobal argument => (parseMode argument).map some
  | .setOverride _ argument => (parseMode argument).map some
  | .clearOverride _ => .ok none
  | .reopen _ => .ok none

/-- The mode that a request wants to set. -/
def Request.argument? : Request → Option (Argument Mode)
  | .setGlobal argument => some argument
  | .setOverride _ argument => some argument
  | _ => none

/-- The scope that a request is about. -/
def Request.scope? : Request → Option Scope
  | .setOverride scope _ => some scope
  | .clearOverride scope => some scope
  | _ => none

section

variable {default other : Mode} {log : List Entry} {b start : Backed Config} {c : Config}
  {handle : Storage} {said : Option Mode}

/-- The last word is that of the last entry, if that says anything. -/
theorem last_append {α : Type} (said : Entry → Option α) (log : List Entry) (entry : Entry) :
    last said (log ++ [entry]) = (said entry).or (last said log) := by
  unfold last
  rw [List.filterMap_append, List.getLast?_append]
  congr 1
  cases spoken : said entry <;> simp [spoken]

theorem ownOf_append (scope : Scope) (log : List Entry) (entry : Entry) :
    ownOf scope (log ++ [entry]) = (entry.own? scope).getD (ownOf scope log) := by
  unfold ownOf
  rw [last_append, Option.or_eq_orElse]
  cases entry.own? scope <;> rfl

/-! ## The table behind a store -/

/-- A file keeps a store over a default, and holds the global mode that was ever set. -/
def Filed (default : Mode) (said : Option Mode) (c : Config) (handle : Storage) : Prop :=
  ∃ t, handle.volume = .database (some t) ∧ Kept default t.config c ∧
    modeAt globalKey t.config = said.map Mode.name

/-- The global mode that a file gives is the one that was ever set, or else the default. -/
theorem global_of_filed (filed : Filed default said c handle) : c.global = said.getD default := by
  obtain ⟨t, -, kept, set⟩ := filed
  refine name_injective ?_
  rw [kept.global, set]
  cases said <;> rfl

theorem upsert_outcome {t : Tables} (ready : handle.volume = .database (some t))
    (key mode : String) :
    (Storage.upsertConfig (.str key) (.str mode)).outcome handle =
      (.ok (), handle.withTables { t with config := Tables.setMode (some key) mode t.config }) :=
  Storage.write_ok ready "compat_config" rfl

theorem delete_outcome {t : Tables} (ready : handle.volume = .database (some t)) (key : String) :
    (Storage.deleteConfig (.str key)).outcome handle =
      (.ok (), handle.withTables
        { t with config := t.config.filter fun r => r.key != some key }) :=
  Storage.write_ok ready "compat_config" rfl

theorem Filed.setGlobal (filed : Filed default said c handle) (mode : Mode) :
    ∃ handle', (Storage.upsertConfig (.str globalKey) (.str mode.name)).outcome handle =
        (.ok (), handle') ∧ Filed default (some mode) { c with global := mode } handle' := by
  obtain ⟨t, ready, kept, -⟩ := filed
  exact ⟨_, upsert_outcome ready _ _, _, rfl, kept.setGlobal mode, modeAt_setMode _ _ _⟩

theorem Filed.setOverride (filed : Filed default said c handle) (scope : Scope) (mode : Mode) :
    ∃ handle', (Storage.upsertConfig (.str scope.render) (.str mode.name)).outcome handle =
        (.ok (), handle') ∧ Filed default said (c.withOverride scope mode) handle' := by
  obtain ⟨t, ready, kept, set⟩ := filed
  have untouched := modeAt_setMode_other (render_ne_globalKey scope) mode.name t.config
  exact ⟨_, upsert_outcome ready _ _, _, rfl, kept.setOverride scope mode, untouched.trans set⟩

theorem Filed.clearOverride (filed : Filed default said c handle) (scope : Scope) :
    ∃ handle', (Storage.deleteConfig (.str scope.render)).outcome handle = (.ok (), handle') ∧
      Filed default said (c.without scope) handle' := by
  obtain ⟨t, ready, kept, set⟩ := filed
  have untouched := modeAt_filter_other (render_ne_globalKey scope) t.config
  exact ⟨_, delete_outcome ready _, _, rfl, kept.clearOverride scope, untouched.trans set⟩

/-- What is read from a file with tables is what its rows say. -/
theorem recover_outcome {t : Tables} {opened : Storage}
    (read : recoverFrom { global := default } t.config = .ok c)
    (made : Storage.prepare.outcome handle = (.ok (), opened))
    (there : opened.volume = .database (some t)) :
    (recover default).outcome handle = (.ok c, opened) := by
  have loaded : Storage.loadConfig.outcome opened = (.ok t.config, opened) := by
    unfold Storage.loadConfig
    rw [Step.outcome_map, Storage.access_outcome there]
    rfl
  unfold recover
  rw [Step.bind_of_ok made, Step.bind_of_ok loaded, read]
  rfl

theorem Filed.reopened (filed : Filed default said c handle) (other : Mode) :
    ∃ d opened, (recover other).outcome handle.reopened = (.ok d, opened) ∧
      Filed other said d opened ∧ ∀ scope, d.override? scope = c.override? scope := by
  obtain ⟨t, ready, kept, set⟩ := filed
  obtain ⟨d, read, kept', overrides, -⟩ := kept.recovered other
  have again : handle.reopened.volume = .database (some t) := ready
  have made := Storage.prepare_outcome again rfl
  exact ⟨d, _, recover_outcome read made rfl, ⟨t, rfl, kept', set⟩, overrides⟩

/-! ## One request -/

/-- A store after a log: it says what the log says, and a file behind it keeps it. -/
structure Minds (default : Mode) (log : List Entry) (b : Backed Config) : Prop where
  own : ∀ scope, b.memory.override? scope = ownOf scope log
  global : b.memory.global = globalOf default log
  filed : ∀ handle, b.storage = some handle →
    Filed (defaultOf default log) (last Entry.global? log) b.memory handle

/-- A store follows a log with one more entry if it has what the entry says, and of the rest what
the log says. -/
theorem minds_append {entry : Entry} {after : Backed Config}
    (own : ∀ scope, after.memory.override? scope = (entry.own? scope).getD (ownOf scope log))
    (global : after.memory.global = (entry.global?.or (last Entry.global? log)).getD
      ((entry.default?.or (last Entry.default? log)).getD default))
    (filed : ∀ handle, after.storage = some handle →
      Filed ((entry.default?.or (last Entry.default? log)).getD default)
        (entry.global?.or (last Entry.global? log)) after.memory handle) :
    Minds default (log ++ [entry]) after := by
  refine ⟨fun scope => ?_, ?_, ?_⟩
  · rw [ownOf_append]
    exact own scope
  · unfold globalOf defaultOf
    rw [last_append, last_append]
    exact global
  · unfold defaultOf
    rw [last_append, last_append]
    exact filed

/-- An entry that says nothing leaves everything as it is. -/
theorem Minds.silent (minds : Minds default log b) {entry : Entry}
    (own : ∀ scope, entry.own? scope = none) (global : entry.global? = none)
    (opened : entry.default? = none) : Minds default (log ++ [entry]) b := by
  refine minds_append (fun scope => ?_) ?_ ?_
  · rw [own scope]
    exact minds.own scope
  · rw [global, opened]
    exact minds.global
  · rw [global, opened]
    exact minds.filed

/-- A write that a file takes is followed by the change in memory. -/
theorem change_made {α : Type} {file : Option Storage} {write : Step Storage Unit}
    {holds : Storage → Prop}
    (written : ∀ handle, file = some handle →
      ∃ handle', write.outcome handle = (.ok (), handle') ∧ holds handle')
    (c after : Config) (a : α) :
    ∃ file', (∀ handle, file' = some handle → holds handle) ∧
      (Backed.change write after a).outcome ⟨c, file⟩ = (.ok a, ⟨after, file'⟩) := by
  have writes : Backed.Writes file write True holds := fun handle same => .inl (written handle same)
  rcases Backed.change_outcome writes c after a with ⟨file', -, filed, made⟩ | ⟨-, never, -⟩
  · exact ⟨file', filed, made⟩
  · exact absurd trivial never

/-- A request whose argument names no mode gets that answer, and nothing changes. -/
theorem set_refused {request : Request} {argument : Argument Mode} {failure : Failure}
    (asks : request.argument? = some argument) (bad : parseMode argument = .error failure)
    (b : Backed Config) : request.carryOut.outcome b = (.error failure, b) := by
  cases request with
  | setGlobal given =>
    cases asks
    refine Step.bind_of_error ?_ _
    rw [Registry.setGlobal_outcome b.memory b.storage argument, bad]
  | setOverride scope given =>
    cases asks
    refine Step.bind_of_error ?_ _
    rw [Registry.setOverride_outcome b.memory b.storage scope argument, bad]
  | clearOverride scope => cases asks
  | reopen mode => cases asks

/-- What a request answers, and what becomes of a store that follows a log. -/
def Obeyed (default : Mode) (log : List Entry) (b : Backed Config) (request : Request) : Prop :=
  (request.carryOut.outcome b).1 = request.answer ∧
    Minds default (log ++ [⟨request, request.answer⟩]) (request.carryOut.outcome b).2

theorem obeyed_of_outcome {request : Request} {answer : Except Failure (Option Mode)}
    {after : Backed Config} (ran : request.carryOut.outcome b = (answer, after))
    (answered : request.answer = answer) (minds : Minds default (log ++ [⟨request, answer⟩]) after) :
    Obeyed default log b request := by
  unfold Obeyed
  rw [ran, answered]
  exact ⟨rfl, minds⟩

/-- A set answers what its argument names. -/
theorem answer_of_argument {request : Request} {argument : Argument Mode}
    (asks : request.argument? = some argument) :
    request.answer = (parseMode argument).map some := by
  cases request with
  | setGlobal given =>
    cases asks
    rfl
  | setOverride scope given =>
    cases asks
    rfl
  | clearOverride scope => cases asks
  | reopen mode => cases asks

theorem Minds.refused (minds : Minds default log b) {request : Request} {argument : Argument Mode}
    {failure : Failure} (asks : request.argument? = some argument)
    (bad : parseMode argument = .error failure) : Obeyed default log b request := by
  have answered : request.answer = .error failure := by
    rw [answer_of_argument asks, bad]
    rfl
  refine obeyed_of_outcome (set_refused asks bad b) answered
    (minds.silent (fun scope => ?_) ?_ ?_) <;> cases request <;> rfl

theorem Minds.setGlobal (minds : Minds default log b) (argument : Argument Mode) :
    Obeyed default log b (.setGlobal argument) := by
  cases parsed : parseMode argument with
  | error failure => exact minds.refused rfl parsed
  | ok mode =>
    obtain ⟨file', filed, made⟩ := change_made
      (fun handle same => (minds.filed handle same).setGlobal mode) b.memory
      { b.memory with global := mode } mode
    have ran : (Request.setGlobal argument).carryOut.outcome b =
        (.ok (some mode), ⟨{ b.memory with global := mode }, file'⟩) := by
      refine Step.bind_of_ok ?_ _
      rw [Registry.setGlobal_outcome b.memory b.storage argument, parsed]
      exact made
    have answered : (Request.setGlobal argument).answer = .ok (some mode) := by
      rw [answer_of_argument rfl, parsed]
      rfl
    exact obeyed_of_outcome ran answered (minds_append minds.own rfl filed)

theorem Minds.setOverride (minds : Minds default log b) (scope : Scope)
    (argument : Argument Mode) : Obeyed default log b (.setOverride scope argument) := by
  cases parsed : parseMode argument with
  | error failure => exact minds.refused rfl parsed
  | ok mode =>
    obtain ⟨file', filed, made⟩ := change_made
      (fun handle same => (minds.filed handle same).setOverride scope mode) b.memory
      (b.memory.withOverride scope mode) mode
    have ran : (Request.setOverride scope argument).carryOut.outcome b =
        (.ok (some mode), ⟨b.memory.withOverride scope mode, file'⟩) := by
      refine Step.bind_of_ok ?_ _
      rw [Registry.setOverride_outcome b.memory b.storage scope argument, parsed]
      exact made
    have answered : (Request.setOverride scope argument).answer = .ok (some mode) := by
      rw [answer_of_argument rfl, parsed]
      rfl
    refine obeyed_of_outcome ran answered (minds_append (fun other => ?_) minds.global filed)
    rw [override?_withOverride, minds.own other]
    show _ = (if scope = other then some (some mode) else none).getD _
    split <;> rfl

/-- A mode that is cleared is gone, and where there is none, nothing needs to be written. -/
theorem Minds.clearOverride (minds : Minds default log b) (scope : Scope) :
    Obeyed default log b (.clearOverride scope) := by
  have gone : ∀ other, (Entry.own? other ⟨.clearOverride scope, .ok none⟩).getD (ownOf other log) =
      if scope = other then none else b.memory.override? other := by
    intro other
    show (if scope = other then some none else none).getD _ = _
    rw [minds.own other]
    split <;> rfl
  have ran := Registry.clearOverride_outcome b.memory b.storage scope
  by_cases has : (b.memory.override? scope).isSome = true
  · obtain ⟨file', filed, made⟩ := change_made
      (fun handle same => (minds.filed handle same).clearOverride scope) b.memory
      (b.memory.without scope) ()
    rw [if_pos has, made] at ran
    have carried : (Request.clearOverride scope).carryOut.outcome b =
        (.ok none, ⟨b.memory.without scope, file'⟩) := Step.bind_of_ok ran _
    refine obeyed_of_outcome carried rfl (minds_append (fun other => ?_) minds.global filed)
    exact (override?_without b.memory scope other).trans (gone other).symm
  · rw [if_neg has] at ran
    have carried : (Request.clearOverride scope).carryOut.outcome b = (.ok none, b) :=
      Step.bind_of_ok ran _
    refine obeyed_of_outcome carried rfl (minds_append (fun other => ?_) minds.global minds.filed)
    rw [gone other]
    split
    · next here =>
      rw [← here]
      exact Option.not_isSome_iff_eq_none.1 has
    · rfl

theorem Minds.reopen (minds : Minds default log b) (other : Mode)
    (possible : b.storage.isSome = true) : Obeyed default log b (.reopen other) := by
  obtain ⟨memory, file⟩ := b
  obtain ⟨handle, rfl⟩ := Option.isSome_iff_exists.1 possible
  obtain ⟨d, opened, read, filed, overrides⟩ := (minds.filed handle rfl).reopened other
  have ran : (Config.reopen other).outcome ⟨memory, some handle⟩ = (.ok (), ⟨d, some opened⟩) := by
    show (match (recover other).outcome handle.reopened with
      | (.ok c, opened) => ((.ok (), ⟨c, some opened⟩) : Except Failure Unit × Backed Config)
      | (.error failure, opened) => (.error failure, ⟨memory, some opened⟩)) = _
    rw [read]
  have carried : (Request.reopen other).carryOut.outcome ⟨memory, some handle⟩ =
      (.ok none, ⟨d, some opened⟩) := Step.bind_of_ok ran _
  refine obeyed_of_outcome carried rfl (minds_append (fun scope => ?_) (global_of_filed filed)
    fun handle' same => ?_)
  · exact (overrides scope).trans (minds.own scope)
  · cases same
    exact filed

/-- Every request that is possible is answered and followed as it should be. -/
theorem Minds.obeyed (minds : Minds default log b) {request : Request}
    (possible : request.Possible b) : Obeyed default log b request := by
  cases request with
  | setGlobal argument => exact minds.setGlobal argument
  | setOverride scope argument => exact minds.setOverride scope argument
  | clearOverride scope => exact minds.clearOverride scope
  | reopen other => exact minds.reopen other possible

/-! ## A run of requests -/

theorem Unset.minds (unset : Unset default start) : Minds default [] start := by
  cases unset with
  | memory => exact ⟨fun _ => rfl, rfl, nofun⟩
  | @file handle opened tables c database empty read =>
    have rows : recoverFrom { global := default } (tables.getD {}).config =
        .ok { global := default } := by
      rw [empty]
      rfl
    have kept : Kept default (tables.getD {}).config { global := default } := by
      rw [empty]
      exact kept_empty default
    have nothing : modeAt globalKey (tables.getD {}).config = none := by
      rw [empty]
      rfl
    obtain ⟨path, volume, patience, prepared⟩ := handle
    cases database
    have opens : ∀ ready, Storage.prepare.outcome ⟨path, .database tables, patience, prepared⟩ =
        (.ok (), ready) → ready.volume = .database (some (tables.getD {})) →
        Minds default [] ⟨c, some opened⟩ := by
      intro ready made there
      rw [recover_outcome rows made there] at read
      cases read
      refine ⟨fun _ => rfl, rfl, fun handle same => ?_⟩
      cases same
      exact ⟨_, there, kept, nothing⟩
    cases prepared with
    | false => exact opens _ (Storage.prepare_outcome rfl rfl) rfl
    | true =>
      cases tables with
      | some t => exact opens _ rfl rfl
      | none => cases read

theorem Told.minds (unset : Unset default start) (told : Told start log b) :
    Minds default log b := by
  induction told with
  | start => exact unset.minds
  | step request before possible ih =>
    obtain ⟨answered, after⟩ := ih.obeyed possible
    rw [answered]
    exact after

/-! ## What a run shows -/

theorem Minds.effective (minds : Minds default log b) (scope : Scope) :
    b.memory.effective scope = effectiveOf default scope log := by
  unfold Config.effective
  rw [minds.own scope, minds.global]
  rfl

/-- A scope whose subject reads like the key of the global mode. -/
def disguised : Scope := ⟨"__GLOBAL__-key", .key, by decide⟩

/-- Another scope, which has no mode of its own. -/
def plain : Scope := ⟨"__GLOBAL__", .key, by decide⟩

end

end AvroRegistry.Config
