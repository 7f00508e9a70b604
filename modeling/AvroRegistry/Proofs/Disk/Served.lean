import AvroRegistry.CommandLine.Session
import AvroRegistry.Proofs.Disk.Mounted
import AvroRegistry.Proofs.Registry.Written
import AvroRegistry.Proofs.Registry.Rebuilt

/-!
# A registry served from a disk

To carry out one operation a registry is opened on its file, and all that it knew is thrown away
afterwards. The file keeps it: if what stands there is what a registry in memory knows (`Houses`),
the operation gives what it would give in memory, and what stands there afterwards is what the
registry in memory knows then (`Houses.serve`). An operation that fails leaves the rows of the file
as they were, and so does one that only tests a schema.
-/

namespace AvroRegistry

open Compatibility (Mode)
open Storage (ready prepare_outcome prepare_ready loadSchemas_ready loadVersions_ready
  loadConfig_ready)

namespace Registry

section

variable {default : Mode} {handle opened : Storage} {tables : Option Tables} {r : Registry}

/-! ## Opening -/

/-- Reading makes sure of the tables and writes no row. -/
theorem load_ready (default : Mode) (database : handle.volume = .database tables)
    (unprepared : handle.prepared = false) :
    ((load default).outcome handle).2 = handle.ready (tables.getD {}) := by
  have schemas : (Schemas.recover.outcome handle).2 = handle.ready (tables.getD {}) := by
    unfold Schemas.recover
    rw [Step.bind_of_ok (prepare_outcome database unprepared),
      Step.bind_of_ok (loadSchemas_ready handle _)]
    split <;> rfl
  have versions : Versions.recover.Looks (handle.ready (tables.getD {})) := by
    unfold Versions.recover Step.Looks
    rw [Step.bind_of_ok (prepare_ready handle _), Step.bind_of_ok (loadVersions_ready handle _)]
    split <;> rfl
  have config : (Config.recover default).Looks (handle.ready (tables.getD {})) := by
    unfold Config.recover Step.Looks
    rw [Step.bind_of_ok (prepare_ready handle _), Step.bind_of_ok (loadConfig_ready handle _)]
    split <;> rfl
  unfold load
  rw [Step.outcome_bind]
  cases ran : Schemas.recover.outcome handle with
  | mk result after =>
    rw [ran] at schemas
    obtain rfl : after = _ := schemas
    cases result with
    | error failure => rfl
    | ok s => exact versions.bind fun v _ => config.bind fun c _ => rfl

/-- A registry that was opened has the handle that it was opened on, with the tables there. -/
theorem opened_ready (opening : (openWith default).outcome (some handle) = (.ok r, some opened))
    (database : handle.volume = .database tables) (unprepared : handle.prepared = false) :
    r.storage = some opened ∧ opened = handle.ready (tables.getD {}) := by
  have ready := load_ready default database unprepared
  rw [openWith_some] at opening
  split at opening
  · next ran =>
    rw [ran] at ready
    cases opening
    exact ⟨rfl, ready⟩
  · cases opening

/-- A file that is not there yet is read like one with empty tables. -/
theorem openWith_absent (default : Mode) (path : String) (patience : Nat) :
    (openWith default).outcome (some ⟨path, .database none, patience, false⟩) =
      (openWith default).outcome (some ⟨path, .database (some {}), patience, false⟩) := rfl

end

/-! ## One operation on a disk -/

/-- The handle on the file that settings name, if they name one. -/
def handleOf (settings : Settings) : Option Storage :=
  settings.file?.map fun path => Storage.ofPath path settings.busyTimeout

theorem unprepared_handleOf {settings : Settings} {handle : Storage}
    (named : handleOf settings = some handle) : handle.prepared = false := by
  obtain ⟨path, -, rfl⟩ := Option.map_eq_some_iff.1 named
  rfl

section

variable {σ α : Type} [HasFile σ]

theorem onDisk_eq (step : Step σ α) (s : σ) (d : Disk) :
    (Step.onDisk step).outcome (s, d) =
      ((step.outcome (d.mountIn s).1).1, ((step.outcome (d.mountIn s).1).2,
        (d.mountIn s).2.keepOf (step.outcome (d.mountIn s).1).2)) := rfl

theorem keepOf_of_file {s : σ} {handle : Storage} (file : HasFile.file? s = some handle) (d : Disk) :
    d.keepOf s = d.keep handle := by
  rw [Disk.keepOf, file]

theorem openOn_eq (settings : Settings) (d : Disk) :
    (openOn settings).outcome d =
      (((Step.onDisk (openWith settings.defaultMode)).outcome (handleOf settings, d)).1,
        ((Step.onDisk (openWith settings.defaultMode)).outcome (handleOf settings, d)).2.2) := rfl

theorem serve_eq (settings : Settings) (op : Operation) (d : Disk) :
    (serve settings op).outcome d =
      match (openOn settings).outcome d with
      | (.ok r, d) =>
        (((Step.onDisk (perform op)).outcome (r, d)).1,
          ((Step.onDisk (perform op)).outcome (r, d)).2.2)
      | (.error f, d) => (.error f, d) := by
  unfold serve
  rw [Step.outcome_bind]
  cases (openOn settings).outcome d with
  | mk result after => cases result <;> rfl

end

section

variable {default : Mode} {settings : Settings} {handle opened : Storage}
  {tables : Option Tables} {r : Registry} {d d' : Disk}

theorem openOn_outcome (named : handleOf settings = some handle)
    (reaches : d.Reaches handle tables d')
    (opening : (openWith settings.defaultMode).outcome
      (some { handle with volume := .database tables }) = (.ok r, some opened)) :
    (openOn settings).outcome d = (.ok r, d'.keep opened) := by
  have mounted : d.mountIn (some handle) =
      (some { handle with volume := .database tables }, d') := by
    show (some (d.mount handle).1, (d.mount handle).2) = _
    rw [reaches.mount]
  rw [openOn_eq, named, onDisk_eq, mounted]
  dsimp only
  rw [opening]
  rfl

/-- A registry that finds on a disk what it has seen there last goes on as if there were none. -/
theorem onDisk_outcome {α : Type} (step : Step Registry α) (backed : r.storage = some handle)
    (seen : handle.volume = .database tables) (finds : d.Finds handle tables) :
    (Step.onDisk step).outcome (r, d) =
      ((step.outcome r).1, ((step.outcome r).2, d.keepOf (step.outcome r).2)) := by
  have looked : d.mount handle = (handle, d) := by
    rw [finds.mount, ← seen]
  have mounted : d.mountIn r = (r, d) := by
    obtain ⟨schemas, versions, config, file⟩ := r
    cases backed
    show (({ schemas, versions, config, storage := some (d.mount handle).1 } : Registry),
      (d.mount handle).2) = _
    rw [looked]
  rw [onDisk_eq, mounted]

/-- An operation is carried out by the registry that was opened, and the disk keeps what that has
written. -/
theorem serve_outcome (named : handleOf settings = some handle)
    (reaches : d.Reaches handle tables d')
    (opening : (openWith settings.defaultMode).outcome
      (some { handle with volume := .database tables }) = (.ok r, some opened))
    (sound : r.Sound default) (op : Operation) :
    ∃ d'' after t, (serve settings op).outcome d = (((perform op).outcome r).1, d'') ∧
      ((perform op).outcome r).2.storage = some after ∧ after.volume = .database (some t) ∧
      d''.Finds handle (some t) := by
  have unprepared : handle.prepared = false := unprepared_handleOf named
  obtain ⟨backed, rfl⟩ := opened_ready opening rfl unprepared
  have finds : (d'.keep (ready { handle with volume := .database tables } (tables.getD {}))).Finds
      handle (some (tables.getD {})) := reaches.finds.kept rfl rfl
  have stays : ((perform op).outcome r).2.anchor = some (handle.path, handle.patience) := by
    rw [fixes_perform op r]
    unfold anchor
    rw [backed]
    rfl
  obtain ⟨after, backed', anchored⟩ := Option.map_eq_some_iff.1 stays
  obtain ⟨t, written, -⟩ := ((sound.perform op).1.file after backed').tables
  have ran := onDisk_outcome (perform op) backed rfl (finds.anchored rfl rfl)
  refine ⟨_, after, t, ?_, backed', written, finds.kept (congrArg Prod.fst anchored) written⟩
  rw [serve_eq, openOn_outcome named reaches opening]
  dsimp only
  rw [ran, keepOf_of_file backed']

end

/-! ## What a disk keeps -/

/-- The rows that are found in the file of a handle. -/
def rowsAt (d : Disk) (handle : Storage) : Tables :=
  match (d.mount handle).1.volume with
  | .database tables => tables.getD {}
  | _ => {}

section

variable {default : Mode} {settings : Settings} {handle opened : Storage}
  {tables : Option Tables} {m r : Registry} {d d' : Disk} {s : Schemas} {v : Versions} {c : Config}

theorem rowsAt_of_reaches (reaches : d.Reaches handle tables d') :
    rowsAt d handle = tables.getD {} := by
  unfold rowsAt
  rw [reaches.mount]

/-- A file that holds what a sound registry knows is opened, over the same default or another
one. -/
theorem opens_of_holds (holds : (tables.getD {}).Holds default s v c) (soundS : s.Sound)
    (soundV : Versions.Sound s v) (unprepared : handle.prepared = false) (other : Mode) :
    ∃ b opened, (openWith other).outcome (some { handle with volume := .database tables }) =
        (.ok b, some opened) ∧ b.Sound other ∧ b.schemas = s ∧
      (∀ scope, b.versions.ofScope scope = v.ofScope scope) ∧
      (∀ scope, b.config.override? scope = c.override? scope) ∧
      (other = default → b.config.global = c.global) := by
  have ready : (handle.ready (tables.getD {})).Holds default s v c := ⟨rfl, _, rfl, holds⟩
  obtain ⟨w, e, opened, opening, holds', soundW, -, scopes, overrides, global⟩ :=
    ready.reopened soundS soundV other
  refine ⟨⟨s, w, e, some opened⟩, opened, ?_, ⟨soundS, soundW, fun handle' same => ?_⟩, rfl, scopes,
    overrides, global⟩
  · obtain ⟨path, volume, patience, prepared⟩ := handle
    obtain rfl : prepared = false := unprepared
    cases tables with
    | some t => exact opening
    | none => exact (openWith_absent other path patience).trans opening
  · cases same
    exact holds'

/-- The file of a handle, where it is on a disk or will be made, holds what a registry in memory
knows. -/
def Houses (default : Mode) (d : Disk) (handle : Storage) (m : Registry) : Prop :=
  ∃ tables d' b, d.Reaches handle tables d' ∧ Together default m b ∧
    (tables.getD {}).Holds default b.schemas b.versions b.config

theorem Houses.together (houses : Houses default d handle m) : Together default m m := by
  obtain ⟨-, -, b, -, together, -⟩ := houses
  exact together.self

/-- Testing a schema is the only operation that says whether it is compatible, and only looks. -/
theorem looks_of_compatible {op : Operation} {b : Bool}
    (said : ((perform op).outcome r).1 = .ok (.compatible b)) : (perform op).Looks r := by
  have kind : ∀ {α : Type} (step : Step Registry α) (f : α → Result),
      ((do return f (← step) : Step Registry Result).outcome r).1 = .ok (.compatible b) →
      ∃ a, f a = .compatible b := by
    intro α step f gives
    rw [Step.outcome_map] at gives
    cases ran : (step.outcome r).1 with
    | error failure =>
      rw [ran] at gives
      cases gives
    | ok a =>
      rw [ran] at gives
      exact ⟨a, Except.ok.inj gives⟩
  cases op with
  | test subject part schema version => exact (looks_test subject part r schema version).map _
  | _ =>
    obtain ⟨a, other⟩ := kind _ _ said
    cases other

/-- A registry that carries out an operation in tandem with one in memory is left as it was if that
fails. -/
theorem Together.unchanged_of_failed (together : Together default m r) {op : Operation}
    {failure : Failure} {m' r' : Registry}
    (failed : (perform op).outcome m = (.error failure, m'))
    (failed' : (perform op).outcome r = (.error failure, r')) (still : Together default m' r') :
    r' = r := by
  have same : m' = m := by
    rcases together.left.perform_failed op failed with same | ⟨-, -, backed, -⟩
    · exact same
    · rw [together.memory] at backed
      cases backed
  rcases together.right.perform_failed op failed' with unchanged | ⟨-, -, -, new, -, stored⟩
  · exact unchanged
  · -- A schema that was stored for nothing would be known in memory too.
    rcases put_commits together.right _ new with ⟨file, -, added, -⟩ | ⟨-, -, _, -, -, -, broke⟩
    · have more := congrArg Registry.schemas (Prod.mk.inj (stored.symm.trans added)).2
      rw [still.alike.schemas, same, ← together.alike.schemas] at more
      have longer : r.schemas.entries.length = (r.schemas.entries ++ [_]).length :=
        congrArg (fun s : Schemas => s.entries.length) more
      rw [List.length_append, List.length_singleton] at longer
      omega
    · cases broke.symm.trans stored

/-- A registry that is opened on a file goes on in tandem with the one in memory that knows what the
file holds. -/
theorem Together.mounted (together : Together default m r)
    (holds : (tables.getD {}).Holds default r.schemas r.versions r.config)
    (unprepared : handle.prepared = false) :
    ∃ r' opened, (openWith default).outcome (some { handle with volume := .database tables }) =
        (.ok r', some opened) ∧ Together default m r' := by
  obtain ⟨r', opened, opening, sound, schemas, versions, overrides, global⟩ :=
    opens_of_holds holds together.right.schemas together.right.versions unprepared default
  exact ⟨r', opened, opening, together.memory, together.left, sound,
    schemas.trans together.alike.schemas,
    fun scope => (versions scope).trans (together.alike.versions scope),
    (global rfl).trans together.alike.global,
    fun scope => (overrides scope).trans (together.alike.overrides scope)⟩

/-- A registry that is as it was opened has changed no row of its file. -/
theorem rowsAt_of_opened {d'' : Disk} {after : Storage} {t : Tables}
    (opening : (openWith default).outcome (some { handle with volume := .database tables }) =
      (.ok r, some opened)) (unprepared : handle.prepared = false)
    (reaches : d.Reaches handle tables d') (backed : r.storage = some after)
    (written : after.volume = .database (some t)) (finds : d''.Finds handle (some t)) :
    rowsAt d'' handle = rowsAt d handle := by
  obtain ⟨backed', rfl⟩ := opened_ready opening rfl unprepared
  cases backed.symm.trans backed'
  cases written
  rw [rowsAt_of_reaches finds, rowsAt_of_reaches reaches]
  rfl

/-- An operation gives on a disk what it gives in memory, and the disk keeps what the registry in
memory knows afterwards. No row of the file changes if the operation fails, or only says whether a
schema is compatible. -/
theorem Houses.serve (houses : Houses settings.defaultMode d handle m)
    (named : handleOf settings = some handle) (op : Operation)
    (fits : ((perform op).outcome m).2.Fits) :
    ∃ d', (Registry.serve settings op).outcome d = (((perform op).outcome m).1, d') ∧
      Houses settings.defaultMode d' handle ((perform op).outcome m).2 ∧
      ((∀ failure, ((perform op).outcome m).1 = .error failure → rowsAt d' handle = rowsAt d handle) ∧
        ∀ b, ((perform op).outcome m).1 = .ok (.compatible b) →
          rowsAt d' handle = rowsAt d handle) := by
  obtain ⟨tables, d₁, b, reaches, together, holds⟩ := houses
  have unprepared : handle.prepared = false := unprepared_handleOf named
  obtain ⟨b', opened, opening, together'⟩ := together.mounted holds unprepared
  obtain ⟨d₂, after, t, served, backed, written, finds⟩ :=
    serve_outcome named reaches opening together'.right op
  obtain ⟨answer, m', b'', first, -, -, -, -, second⟩ := perform_tandem together' op
  rw [first] at fits ⊢
  rcases second with ⟨second, still⟩ | ⟨-, long, -⟩
  · rw [second] at served backed
    have holds' : t.Holds settings.defaultMode b''.schemas b''.versions b''.config := by
      obtain ⟨t', written', holds'⟩ := (still.right.file after backed).tables
      cases written.symm.trans written'
      exact holds'
    have rows : b'' = b' → rowsAt d₂ handle = rowsAt d handle := by
      rintro rfl
      exact rowsAt_of_opened opening unprepared reaches backed written finds
    refine ⟨d₂, served, ⟨some t, d₂, b'', finds, still, holds'⟩, fun failure failed => ?_,
      fun c said => ?_⟩
    · have failed : answer = .error failure := failed
      subst failed
      exact rows (together'.unchanged_of_failed first second still)
    · refine rows ?_
      have looks : (perform op).Looks b' := looks_of_compatible (by rw [second]; exact said)
      exact (congrArg Prod.snd second).symm.trans looks
  · exact absurd fits long

end

end Registry

end AvroRegistry
