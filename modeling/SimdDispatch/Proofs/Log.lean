import SimdDispatch.Proofs.Bindings

/-!
What a successful resolution writes to its log, stage by stage. A slot writes nothing unless its
preference was passed over, and then one warning.
-/
namespace SimdDispatch.Resolution

/-- The warning about a preference that a slot of the table does not take. -/
def passedOver (t : Table) (p : Primitive) (contract : Contract) (name : String) : Event :=
  if (p.find? name).isSome then .preferenceIneligible p.name name contract
  else .preferenceUnavailable p.name name t.name

/-- What a slot writes, given what it was filled with. -/
def slotEvents (t : Table) (p : Primitive) (contract : Contract) (preferred : Option String)
    (i : Implementation) : List Event :=
  match preferred with
  | some name => if i.name = name then [] else [passedOver t p contract name]
  | none => []

theorem passOver_eq {t : Table} {p : Primitive} {name : String} (known : p.Knows name)
    (contract : Contract) : passOver t p contract name = Traced.log (passedOver t p contract name) := by
  unfold passOver passedOver
  by_cases here : (p.find? name).isSome = true
  · simp only [here, if_true]
  · have elsewhere := (Primitive.knows_iff.mp known).resolve_left here
    simp only [here, elsewhere, if_true]
    rfl

theorem firstEligible_eq_ok {t : Table} {p : Primitive} {detected : CapabilitySet}
    {contract : Contract} {i : Implementation}
    (ok : firstEligible t p detected contract = .ok i) :
    i ∈ p.implementations ∧ i.isEligible detected (t.boundary contract) = true := by
  unfold firstEligible at ok
  split at ok
  · rename_i j found
    cases ok
    unfold Primitive.resolve at found
    have eligible := List.find?_some found
    exact ⟨List.mem_of_find?_eq_some found, eligible⟩
  · cases ok

section Slots

variable {t : Table} {p : Primitive} {detected : CapabilitySet} (member : p ∈ t.primitives)
include member

theorem bindSlot_events {contract : Contract} {preferred : Option String} {i : Implementation}
    (ok : (bindSlot t p detected contract preferred).outcome = .ok i) :
    (bindSlot t p detected contract preferred).events = slotEvents t p contract preferred i := by
  have distinct := (t.wellFormed.primitives p member).wellFormed.distinct
  cases preferred with
  | none => rfl
  | some name =>
    simp only [bindSlot] at ok ⊢
    cases taken : (p.find? name).filter (·.isEligible detected (t.boundary contract)) with
    | some j =>
      rw [taken] at ok
      cases ok
      obtain ⟨found, -⟩ := Option.filter_eq_some_iff.mp taken
      have named := ((find?_name_eq_some_iff _ distinct).mp found).2
      have silent : slotEvents t p contract (some name) i = [] := by simp [slotEvents, named]
      rw [silent]
      rfl
    | none =>
      rw [taken] at ok
      obtain ⟨_, passed, first, log⟩ := Traced.bind_eq_ok ok
      rw [passOver_outcome] at passed
      have unfaulty := (settle_eq_ok_iff.mp passed).1
      have known : p.Knows name := by simpa [Primitive.preferenceFault?] using unfaulty
      obtain ⟨listed, eligible⟩ := firstEligible_eq_ok first
      have other : i.name ≠ name := by
        intro named
        have found : p.find? name = some i := (find?_name_eq_some_iff _ distinct).mpr ⟨listed, named⟩
        exact Option.filter_eq_none_iff.mp taken i found eligible
      change (passOver t p contract name >>= fun _ => _).events = _
      rw [log, passOver_eq known]
      simp [slotEvents, other]

theorem bindPrimitive_events {config : Config} {entry : String × Binding}
    (ok : (bindPrimitive t detected config p).outcome = .ok entry) :
    (bindPrimitive t detected config p).events =
      slotEvents t p .aligned (config.preferred p.name .aligned) entry.2.aligned ++
        (slotEvents t p .unaligned (config.preferred p.name .unaligned) entry.2.unaligned ++
          [.primitiveBound p.name entry.2.aligned.name entry.2.unaligned.name]) := by
  unfold bindPrimitive at ok ⊢
  obtain ⟨a, aligned, ok, log⟩ := Traced.bind_eq_ok ok
  obtain ⟨u, unaligned, ok, log'⟩ := Traced.bind_eq_ok ok
  cases ok
  have first := bindSlot_events member aligned
  have second := bindSlot_events member unaligned
  rw [log, log', first, second]
  rfl

end Slots

theorem new_events {tables : List Table} {requested : CapabilitySet} {config : Config}
    {r : Resolution} (ok : (new tables requested config).outcome = .ok r) :
    List.Forall₂ (fun p entry => (bindPrimitive r.table r.detected config p).outcome = .ok entry)
        r.table.primitives r.bindings ∧
      (new tables requested config).events =
        (effective requested config).events ++
          .tableSelected r.table.name r.detected r.table.alignment ::
            r.table.primitives.flatMap
              fun p => (bindPrimitive r.table r.detected config p).events := by
  unfold new at ok ⊢
  obtain ⟨-, -, ok, log⟩ := Traced.bind_eq_ok ok
  obtain ⟨-, -, ok, log₁⟩ := Traced.bind_eq_ok ok
  obtain ⟨left, -, ok, log₂⟩ := Traced.bind_eq_ok ok
  obtain ⟨t, -, ok, log₃⟩ := Traced.bind_eq_ok ok
  obtain ⟨-, -, ok, log₄⟩ := Traced.bind_eq_ok ok
  obtain ⟨-, -, ok, log₅⟩ := Traced.bind_eq_ok ok
  obtain ⟨bindings, bound, ok, log₆⟩ := Traced.bind_eq_ok ok
  cases ok
  obtain ⟨related, logs⟩ := Traced.mapM_eq_ok bound
  refine ⟨related, ?_⟩
  rw [log, log₁, log₂, log₃, log₄, log₅, log₆, logs]
  simp

/-- The part of the log that one primitive writes, read off what its slots hold. -/
theorem primitive_events {tables : List Table} {requested : CapabilitySet} {config : Config}
    {r : Resolution} (ok : (new tables requested config).outcome = .ok r) {p : Primitive}
    (member : p ∈ r.table.primitives) :
    ∃ b, r.binding p.name = .ok b ∧ preferencesFault? config p = none ∧
      (∀ contract,
        p.Fills (r.table.boundary contract) (config.preferred p.name contract) (b.for contract)) ∧
      (bindPrimitive r.table r.detected config p).events =
        slotEvents r.table p .aligned (config.preferred p.name .aligned) b.aligned ++
          (slotEvents r.table p .unaligned (config.preferred p.name .unaligned) b.unaligned ++
            [.primitiveBound p.name b.aligned.name b.unaligned.name]) := by
  have resolved := resolved_of_ok ok
  obtain ⟨⟨name, b⟩, present, bound⟩ := forall₂_left (new_events ok).1 member
  have events := bindPrimitive_events member bound
  obtain ⟨entry, held, outcome⟩ := bindPrimitive_outcome member resolved.chosen.runs config
  rw [outcome] at bound
  obtain ⟨unfaulty, rfl⟩ := settle_eq_ok_iff.mp bound
  obtain ⟨named, filled⟩ := held
  exact ⟨b, named ▸ resolved.binding_of_mem present, unfaulty, filled, events⟩

end SimdDispatch.Resolution
