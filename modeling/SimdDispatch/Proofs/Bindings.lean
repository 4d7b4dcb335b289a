import SimdDispatch.Proofs.Resolution
import SimdDispatch.Proofs.SortedMap

/-!
What a successful resolution holds. Its capabilities, its table and both implementations of every
primitive are determined by the tables, the request and the configuration.
-/
namespace SimdDispatch

namespace Primitive

theorem find?_of_split {p : Primitive} {boundary : Nat} {i : Implementation}
    {before after : List Implementation} (split : p.implementations = before ++ i :: after)
    (fits : i.alignment ≤ boundary) (earlier : ∀ j ∈ before, boundary < j.alignment) :
    p.implementations.find? (decide <| ·.alignment ≤ boundary) = some i := by
  rw [List.find?_eq_some_iff_append]
  exact ⟨decide_eq_true fits, before, after, split, fun j early => by simpa using earlier j early⟩

theorem Fills.unique {p : Primitive} (wellFormed : p.WellFormed) {boundary : Nat}
    {preferred : Option String} {i j : Implementation} (left : p.Fills boundary preferred i)
    (right : p.Fills boundary preferred j) : i = j := by
  cases left with
  | preferred member named fits =>
    cases right with
    | preferred member' named' fits' =>
      have same : i.name = j.name := Option.some.inj (named.symm.trans named')
      exact List.inj_on_of_nodup_map wellFormed.distinct member member' same
    | first _ _ _ _ _ unmet => exact absurd fits (Nat.not_le_of_lt (unmet i member named))
  | first before after split fits earlier unmet =>
    cases right with
    | preferred member named fits' => exact absurd fits' (Nat.not_le_of_lt (unmet j member named))
    | first before' after' split' fits' earlier' _ =>
      have found := find?_of_split split fits earlier
      rw [find?_of_split split' fits' earlier'] at found
      exact (Option.some.inj found).symm

end Primitive

namespace Resolution

variable {tables : List Table} {requested : CapabilitySet} {config : Config}

theorem Chosen.unique (accepted : Machines.validate tables = .ok ()) {detected : CapabilitySet}
    {t u : Table} (left : Chosen tables detected config t) (right : Chosen tables detected config u) :
    t = u := by
  have chose := (chooseTable_eq_ok_iff accepted).mpr left
  rw [(chooseTable_eq_ok_iff accepted).mpr right] at chose
  exact (Except.ok.inj chose).symm

theorem Resolved.binding_of_mem {r : Resolution} (resolved : Resolved tables requested config r)
    {name : String} {b : Binding} (present : (name, b) ∈ r.bindings) : r.binding name = .ok b := by
  have distinct : (r.bindings.map (·.1)).Nodup := by
    rw [resolved.names]
    exact r.table.wellFormed.distinct
  have found : r.bindings.lookup name = some b := lookup_of_mem distinct present
  rw [Resolution.binding, found]

theorem Resolved.binding {r : Resolution} (resolved : Resolved tables requested config r)
    {p : Primitive} (member : p ∈ r.table.primitives) :
    ∃ b, r.binding p.name = .ok b ∧ ∀ contract,
      p.Fills (r.table.boundary contract) (config.preferred p.name contract) (b.for contract) := by
  obtain ⟨⟨name, b⟩, present, named, filled⟩ := forall₂_left resolved.bound member
  have found : r.binding p.name = .ok b := named ▸ resolved.binding_of_mem present
  exact ⟨b, found, filled⟩

/-- A successful resolution in full: what the configuration leaves of the capabilities, the pinned
or else the best table, and in table order the one implementation that fills each slot. Once the
table is chosen, no capability decides anything more. -/
theorem new_binds (tables : List Table) (requested : CapabilitySet) (config : Config)
    (r : Resolution) (ok : (new tables requested config).outcome = .ok r) :
    (∃ disabled, config.disabledSet = .ok disabled ∧
      (∀ c, c ∈ disabled ↔
        ∃ spelling ∈ config.disabled, Capability.ofName? spelling = some c) ∧
      r.detected = if config.forceGeneric then .generic else (requested ∪ .generic) \ disabled) ∧
      (∀ t, Chosen tables r.detected config t ↔ t = r.table) ∧
      r.bindings.map (·.1) = r.table.primitives.map (·.name) ∧
      (∀ p ∈ r.table.primitives, ∃ b, r.binding p.name = .ok b ∧ ∀ contract i,
        p.Fills (r.table.boundary contract) (config.preferred p.name contract) i ↔
          i = b.for contract) ∧
      ∀ p ∈ r.table.primitives, ∀ i ∈ p.implementations, ∀ boundary,
        i.isEligible r.detected boundary = decide (i.alignment ≤ boundary) := by
  have resolved := resolved_of_ok ok
  refine ⟨⟨config.taken, ?_, fun c => Config.mem_taken, resolved.detected⟩, ?_, resolved.names,
    ?_, ?_⟩
  · exact Config.disabledSet_of_validate resolved.valid
  · intro t
    constructor
    · exact fun chosen => chosen.unique resolved.accepted resolved.chosen
    · rintro rfl
      exact resolved.chosen
  · intro p member
    obtain ⟨b, found, filled⟩ := resolved.binding member
    refine ⟨b, found, fun contract i => ⟨fun fills => ?_, ?_⟩⟩
    · exact fills.unique (r.table.wellFormed.primitives p member).wellFormed (filled contract)
    · rintro rfl
      exact filled contract
  · exact fun p member i listed boundary =>
      isEligible_of_runs member resolved.chosen.runs listed boundary

/-- With one capability taken away, a preference is met in the aligned slot, and passed over in the
other one, for which its boundary is too large. -/
theorem new_binds_without_fma :
    let config : Config := {
      disabled := [" F.mA "],
      overrides := .ofList [("sum_of_poly", { aligned := "a_sse3", unaligned := "a_avx" })] }
    ∃ r, (new Machines.builtin ⟨0xffffffff⟩ config).outcome = .ok r ∧ r.table.name = "avx" ∧
      (∀ t, Chosen Machines.builtin r.detected config t ↔ t = r.table) ∧
      r.bindings.map (·.1) = r.table.primitives.map (·.name) ∧
      ∃ b, r.binding "sum_of_poly" = .ok b ∧ b.aligned.name = "a_sse3" ∧
        b.unaligned.name = "u_avx" := by
  intro config
  obtain ⟨r, ok, passed⟩ : ∃ r, (new Machines.builtin ⟨0xffffffff⟩ config).outcome = .ok r ∧
      (r.table.name == "avx" && okAnd (fun b => b.aligned.name == "a_sse3" &&
        b.unaligned.name == "u_avx") (r.binding "sum_of_poly")) = true :=
    exists_of_okAnd (by decide)
  rw [Bool.and_eq_true, beq_iff_eq] at passed
  obtain ⟨b, found, named⟩ := exists_of_okAnd passed.2
  rw [Bool.and_eq_true, beq_iff_eq, beq_iff_eq] at named
  obtain ⟨-, chosen, names, -⟩ := new_binds Machines.builtin ⟨0xffffffff⟩ config r ok
  exact ⟨r, ok, passed.1, chosen, names, b, found, named⟩

end Resolution
end SimdDispatch
