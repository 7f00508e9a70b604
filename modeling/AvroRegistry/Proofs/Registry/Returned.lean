import AvroRegistry.Proofs.Registry.Resubmitted

/-!
# Schemas that a registry gives back

A registry keeps the text that a schema was submitted as, or, if it was submitted as a value, the
text that the value was written as. Whatever has become of the registry meanwhile, that text gives
the canonical text that it is kept with (`Tracks.resubmits`). So a schema that was looked up can be
registered anywhere, and wherever it is accepted it gets the id that it has.
-/

namespace AvroRegistry.Registry

open Compatibility (Mode)

section

variable {default : Mode} {start r r' : Registry} {history : List Deed} {e : StoredSchema}

/-- The raw text of a stored schema can be submitted again: it gives the canonical text and the
fingerprint that are stored with it; wherever registering it succeeds, now or later, it gives the id
of the schema; and it does succeed, and changes nothing, in a scope in which the schema is live. -/
structure Resubmits (r : Registry) (e : StoredSchema) : Prop where
  canonical : ∃ c, Schema.canonicalize e.raw = .ok c ∧ e.canonical = .str c.text ∧
    e.fingerprint = .str (Schema.fingerprint c.text)
  registered : ∀ {later moment}, Run r later moment → ∀ subject part id after,
    (register subject part e.raw).outcome moment = (.ok id, after) → id = e.id
  live : ∀ {later moment}, Run r later moment → ∀ subject part scope,
    scopeOf subject part = .ok scope →
    (∃ version ∈ moment.versions.history scope, version.schemaId = .int e.id) →
      (register subject part e.raw).outcome moment = (.ok e.id, moment)

/-- Every stored schema can be submitted again as its raw text. -/
theorem Reachable.resubmits (reachable : Reachable default r) (stored : e ∈ r.schemas.entries) :
    r.Resubmits e := by
  obtain ⟨other, start, history, begins, run⟩ := reachable.run
  obtain ⟨earlier, c, first⟩ := (run.tracks begins).stored e stored
  obtain ⟨schema, ok⟩ := first.submitted.canonical
  have again : Schema.canonicalize e.raw = .ok c := by
    rw [first.raw]
    exact Schema.canonicalize_raw ok
  have accepted : canonicalOf e.raw = .ok c := by
    rw [first.raw] at again ⊢
    exact canonicalOf_of_canonicalize again
  have kept : ∀ {later moment}, Run r later moment →
      ∃ d, Reachable d moment ∧ e ∈ moment.schemas.entries := by
    intro later moment more
    obtain ⟨d, reachable'⟩ := more.reachable reachable
    exact ⟨d, reachable', (more.schemas_prefix reachable).subset stored⟩
  refine ⟨⟨c, again, first.canonical, first.fingerprint⟩, ?registered, ?live⟩
  case registered =>
    intro later moment more subject part id after registered
    obtain ⟨d, reachable', stored'⟩ := kept more
    refine register_id (fun candidate given => ?_) registered
    cases accepted.symm.trans given
    exact reachable'.sound.schemas.withFingerprint?_mem stored' first.fingerprint
  case live =>
    rintro later moment more subject part scope placed ⟨version, live, points⟩
    obtain ⟨d, reachable', stored'⟩ := kept more
    exact register_live placed accepted
      (reachable'.sound.live?_of_points stored' first.fingerprint live points)

/-! ## Looking up -/

theorem mem_of_schemaById {id : Json} (found : (schemaById id).outcome r = (.ok e, r')) :
    e ∈ r.schemas.entries := by
  obtain ⟨n, -, looked⟩ := ok_of_settle_bind found
  have got : r.schemas.get n = .ok e := ok_of_settle looked
  unfold Schemas.get at got
  split at got
  · next schema listed =>
    cases got
    exact List.mem_of_find?_eq_some listed
  · cases got

theorem Sound.mem_of_schemaAt (sound : r.Sound default) {subject version : Json}
    {part : Argument Part} {info : SchemaInfo}
    (found : (schemaAt subject part version).outcome r = (.ok info, r')) :
    info.schema ∈ r.schemas.entries := by
  obtain ⟨scope, -, placed⟩ := ok_of_settle_bind found
  obtain ⟨selector, -, selected⟩ := ok_of_settle_bind placed
  rw [Step.bind_of_ok (Step.outcome_get r)] at selected
  obtain ⟨version, got, looked⟩ := ok_of_settle_bind selected
  obtain ⟨schema, held, given⟩ := ok_of_settle_bind looked
  obtain ⟨e, stored, -, held'⟩ := sound.schemaOf (Versions.mem_rows_of_get got)
  cases held'.symm.trans held
  cases given
  exact stored

/-- A schema that a registry gives back, by its id or as that of a version, can be submitted again
as the text that it was kept as, at that moment and at any later one; so can every schema that is
stored. In particular a text and the value that it denotes, if that is an array or an object with
something in it, come to the same canonical text and fingerprint, or to the same refusal. -/
theorem Reachable.given_back (reachable : Reachable default r) :
    (∀ e ∈ r.schemas.entries, r.Resubmits e) ∧
    (∀ id e r', (schemaById id).outcome r = (.ok e, r') → r.Resubmits e) ∧
    (∀ subject part version info r',
      (schemaAt subject part version).outcome r = (.ok info, r') → r.Resubmits info.schema) ∧
    ∀ text v, Json.decode text = .ok v → v.isKey = false → v.truthy = true →
      (Schema.canonicalize (.str text)).map (fun c => (c.text, c.fingerprint)) =
        (Schema.canonicalize v).map fun c => (c.text, c.fingerprint) := by
  refine ⟨fun e stored => reachable.resubmits stored, fun id e r' found => ?_,
    fun subject part version info r' found => ?_, fun text v read composite some => ?_⟩
  · exact reachable.resubmits (mem_of_schemaById found)
  · exact reachable.resubmits (reachable.sound.mem_of_schemaAt found)
  · have shown : ∀ x : Except Schema.Refusal Schema.Canonical,
        x.map (fun c => (c.text, c.fingerprint)) = (x.map (·.form)).map fun form =>
          let text := Schema.canonicalText form.toJson
          (text, Schema.fingerprint text) := fun x => by cases x <;> rfl
    rw [shown, shown, Schema.canonicalize_decoded read composite some]

/-- A schema that was deleted where it was first registered is given back as it was spelled there,
and can be registered so where it is live in another spelling. -/
theorem twoSpellings_given_back :
    Reachable .full (after (fresh .full none) twoSpellings) ∧
      ∃ e, (schemaById (.int 1)).outcome (after (fresh .full none) twoSpellings) =
          (.ok e, after (fresh .full none) twoSpellings) ∧
        e.raw = .str "\"string\"" ∧
        (register (.str "payments") (.typed .value) e.raw).outcome
            (after (fresh .full none) twoSpellings) =
          (.ok e.id, after (fresh .full none) twoSpellings) := by
  have reachable : Reachable .full (after (fresh .full none) twoSpellings) :=
    .perform _ (.perform _ (.perform _ (.memory .full)))
  have looked := looks_schemaById (after (fresh .full none) twoSpellings) (.int 1)
  have raw : ((schemaById (.int 1)).outcome
      (after (fresh .full none) twoSpellings)).1.toOption.map (·.raw) =
        some (.str "\"string\"") := by decide +kernel
  have live : ((after (fresh .full none) twoSpellings).versions.history
      ⟨"payments", .value, by decide⟩).map (·.schemaId) = [.int 1] := by decide +kernel
  have placed : scopeOf (.str "payments") (.typed .value) =
    .ok ⟨"payments", .value, by decide⟩ := rfl
  have first : ((schemaById (.int 1)).outcome
      (after (fresh .full none) twoSpellings)).1.toOption.map (·.id) = some 1 := by decide +kernel
  generalize after (fresh .full none) twoSpellings = r at *
  obtain ⟨e, gives, same⟩ := Option.map_eq_some_iff.1 raw
  have found := Step.outcome_of_gives gives
  rw [show ((schemaById (.int 1)).outcome r).2 = r from looked] at found
  have id : e.id = 1 := by
    rw [gives] at first
    exact Option.some.inj first
  obtain ⟨version, rest, listed, points, -⟩ := List.map_eq_cons_iff.1 live
  refine ⟨reachable, e, found, same, ?_⟩
  obtain ⟨-, given, -⟩ := reachable.given_back
  refine (given _ e r found).live .start _ _ _ placed ⟨version, ?_, ?_⟩
  · rw [listed]
    exact List.mem_cons_self
  · rw [points, id]

end

end AvroRegistry.Registry
