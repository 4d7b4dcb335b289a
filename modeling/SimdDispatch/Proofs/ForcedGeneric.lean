import SimdDispatch.Proofs.Fallback

/-!
Resolutions that are forced to the portable capability. The selected table then assumes nothing
else, but it may still promise a boundary: an implementation that asks for one within it can be
bound to the aligned slot, and a preference can always bring it there.
-/
namespace SimdDispatch

namespace Implementation

theorem isGeneric_iff_of_covered {i : Implementation} (covered : i.required ⊆ CapabilitySet.generic) :
    i.isGeneric = true ↔ i.alignment ≤ 1 := by
  simp [isGeneric, covered]

theorem requiresAlignment_eq_false_iff {i : Implementation} :
    i.requiresAlignment = false ↔ i.alignment ≤ 1 := by
  simp [requiresAlignment]

end Implementation

/-- The same configuration with one preference alone, for the aligned slot of a primitive. -/
def Config.preferring (c : Config) (p : Primitive) (i : Implementation) : Config :=
  { c with overrides := .ofList [(p.name, { aligned := some i.name })] }

theorem Config.preferring_entry {c : Config} {p : Primitive} {i : Implementation}
    {primitive name : String} {contract : Contract}
    (preferred : (c.preferring p i).preferred primitive contract = some name) :
    primitive = p.name ∧ name = i.name := by
  obtain ⟨preference, entry, named⟩ := Config.exists_entry_of_preferred preferred
  cases List.mem_singleton.mp entry
  cases contract with
  | aligned =>
    cases named
    exact ⟨rfl, rfl⟩
  | unaligned => cases named

theorem Config.preferring_preferred (c : Config) (p : Primitive) (i : Implementation) :
    (c.preferring p i).preferred p.name .aligned = some i.name := by
  have held : (c.preferring p i).overrides.get? p.name = some { aligned := some i.name } :=
    SortedMap.get?_ofList_of_mem (by simp) (List.mem_singleton_self _)
  rw [Config.preferred, held]
  rfl

namespace Resolution

/-- Both slots of every primitive hold implementations that need nothing. -/
def BindsGeneric (r : Resolution) : Prop :=
  ∀ p ∈ r.table.primitives, ∃ b, r.binding p.name = .ok b ∧
    ∀ contract, (b.for contract).isGeneric = true

variable {tables : List Table} {requested : CapabilitySet} {config : Config} {r : Resolution}

theorem Chosen.with_overrides {detected : CapabilitySet} {t : Table}
    (chosen : Chosen tables detected config t) (overrides : SortedMap Preference) :
    Chosen tables detected { config with overrides := overrides } t := by
  cases chosen with
  | pinned name pin member named runs => exact .pinned name pin member named runs
  | best unpinned best => exact .best unpinned best

theorem Resolved.table_of_overrides (resolved : Resolved tables requested config r)
    {overrides : SortedMap Preference} {s : Resolution}
    (other : Resolved tables requested { config with overrides := overrides } s) :
    s.table = r.table := by
  have same : s.detected = r.detected := other.detected.trans resolved.detected.symm
  have chosen := other.chosen
  rw [same] at chosen
  exact chosen.unique resolved.accepted (resolved.chosen.with_overrides overrides)

section Preferring

variable {p : Primitive} {i : Implementation}

theorem preferring_known {t : Table} (member : p ∈ t.primitives) (listed : i ∈ p.implementations)
    (config : Config) : OverridesKnown t (config.preferring p i) := by
  constructor
  · intro key asked
    obtain ⟨_, entry⟩ := SortedMap.mem_of_mem_keys_ofList asked
    cases List.mem_singleton.mp entry
    exact ⟨p, member, rfl⟩
  · intro q held contract name preferred
    obtain ⟨named, rfl⟩ := Config.preferring_entry preferred
    obtain rfl : q = p := List.inj_on_of_nodup_map t.wellFormed.distinct held member named
    exact .inl ⟨i, listed, rfl⟩

/-- Whatever suits the boundary of a table can be brought to the aligned slot by a preference. -/
theorem Resolved.exists_preferring (resolved : Resolved tables requested config r)
    (member : p ∈ r.table.primitives) (listed : i ∈ p.implementations)
    (fits : i.alignment ≤ r.alignment) :
    ∃ s b, (new tables requested (config.preferring p i)).outcome = .ok s ∧ s.table = r.table ∧
      s.binding p.name = .ok b ∧ b.aligned = i := by
  have chosen : Chosen tables ((config.preferring p i).remaining requested)
      (config.preferring p i) r.table := by
    change Chosen tables (config.remaining requested) _ r.table
    rw [← resolved.detected]
    exact resolved.chosen.with_overrides _
  have valid : (config.preferring p i).validate = .ok () := resolved.valid
  obtain ⟨bindings, -, settled⟩ := new_of_chosen valid resolved.accepted chosen
  rw [overridesFault?_eq_none_iff.mpr (preferring_known member listed config)] at settled
  obtain ⟨b, bound, filled⟩ := (resolved_of_ok settled).binding member
  have preferred : p.Fills r.alignment ((config.preferring p i).preferred p.name .aligned) i :=
    .preferred listed (config.preferring_preferred p i) fits
  have wellFormed := (r.table.wellFormed.primitives p member).wellFormed
  exact ⟨_, b, settled, rfl, bound, (filled .aligned).unique wellFormed preferred⟩

end Preferring

section Forced

variable (forced : config.forceGeneric = true)
include forced

theorem remaining_of_forced : config.remaining requested = .generic := by
  rw [Config.remaining, if_pos forced]

theorem Resolved.mask_of_forced (resolved : Resolved tables requested config r) :
    r.table.mask = .generic := by
  have runs := resolved.chosen.runs
  rw [resolved.detected, remaining_of_forced forced] at runs
  exact CapabilitySet.subset_antisymm runs (CapabilitySet.only_subset r.table.wellFormed.portable)

theorem Resolved.covered_of_forced (resolved : Resolved tables requested config r) {p : Primitive}
    (member : p ∈ r.table.primitives) {i : Implementation} (listed : i ∈ p.implementations) :
    i.required ⊆ CapabilitySet.generic := by
  rw [← resolved.mask_of_forced forced]
  exact (r.table.wellFormed.primitives p member).covered i listed

end Forced

/-- With nothing but the portable capability left, the table assumes only that, and so does all that
is bound. Of boundaries this is true in the unaligned slot alone: the aligned one holds what needs
no boundary, whatever is preferred, exactly if all that needs one needs more than the table's. -/
theorem new_forced_binds (tables : List Table) (requested : CapabilitySet) (config : Config)
    (r : Resolution) (forced : config.forceGeneric = true)
    (ok : (new tables requested config).outcome = .ok r) :
    r.detected = .generic ∧ r.table.mask = .generic ∧
      (∀ p ∈ r.table.primitives, ∃ b, r.binding p.name = .ok b ∧
        (∀ contract, (b.for contract).required ⊆ CapabilitySet.generic) ∧
        b.unaligned.isGeneric = true ∧
        (b.aligned.isGeneric = true ↔ b.aligned.requiresAlignment = false)) ∧
      ((∀ overrides s,
          (new tables requested { config with overrides := overrides }).outcome = .ok s →
            s.BindsGeneric) ↔
        ∀ p ∈ r.table.primitives, ∀ i ∈ p.implementations, i.requiresAlignment = true →
          r.alignment < i.alignment) := by
  have resolved := resolved_of_ok ok
  refine ⟨resolved.detected.trans (remaining_of_forced forced), resolved.mask_of_forced forced,
    fun p member => ?_, ?_, ?_⟩
  · obtain ⟨b, bound, filled⟩ := resolved.binding member
    have covered (contract : Contract) : (b.for contract).required ⊆ CapabilitySet.generic :=
      resolved.covered_of_forced forced member (filled contract).mem
    refine ⟨b, bound, covered, ?_, ?_⟩
    · exact (Implementation.isGeneric_iff_of_covered (covered .unaligned)).mpr
        (filled .unaligned).fits
    · rw [Implementation.requiresAlignment_eq_false_iff]
      exact Implementation.isGeneric_iff_of_covered (covered .aligned)
  · intro binds p member i listed needs
    refine Nat.lt_of_not_le fun fits => ?_
    -- whatever is within the boundary can be preferred, and would then be bound
    obtain ⟨s, b, ok', same, bound, rfl⟩ := resolved.exists_preferring member listed fits
    obtain ⟨b', bound', generic⟩ := binds _ s ok' p (same ▸ member)
    cases bound.symm.trans bound'
    have free := (Implementation.isGeneric_iff_of_covered
      (resolved.covered_of_forced forced member listed)).mp (generic .aligned)
    rw [Implementation.requiresAlignment_eq_false_iff.mpr free] at needs
    cases needs
  · -- overrides change neither the table nor what its capabilities cover
    intro beyond overrides s ok' p member
    have other := resolved_of_ok ok'
    have same := resolved.table_of_overrides other
    obtain ⟨b, bound, filled⟩ := other.binding member
    rw [same] at member filled
    refine ⟨b, bound, fun contract => ?_⟩
    have listed := (filled contract).mem
    rw [Implementation.isGeneric_iff_of_covered (resolved.covered_of_forced forced member listed),
      ← Implementation.requiresAlignment_eq_false_iff, Bool.eq_false_iff]
    intro needs
    have within : (b.for contract).alignment ≤ r.alignment :=
      Nat.le_trans (filled contract).fits (r.table.boundary_le contract)
    exact Nat.not_le_of_lt (beyond p member _ listed needs) within

/-- Two portable tables, of which only the first has the boundary that an entry asks for. -/
def padded : List Table :=
  let sums : Primitive := ⟨"sum_of_poly", .sumOfPoly, [.portable "quick" .generic 32 .sumOfPoly,
    .portable "generic" .generic 1 .sumOfPoly]⟩
  [⟨"wide", .generic, 32, [sums], by decide⟩, ⟨"narrow", .generic, 16, [sums], by decide⟩]

/-- What is preferred here needs more than the pinned table promises. -/
theorem new_forced_binds_on_narrow :
    let config : Config := {
      forceGeneric := true
      disabled := [" A.vX"]
      machine := " narrow"
      overrides := .ofList [("sum_of_poly", { aligned := "quick" })] }
    config.forceGeneric = true ∧
      ∃ r, (new padded ⟨0xffffffff⟩ config).outcome = .ok r ∧ r.table.name = "narrow" ∧
        r.detected = .generic ∧ r.table.mask = .generic ∧ r.BindsGeneric := by
  intro config
  obtain ⟨r, ok, passed⟩ : ∃ r, (new padded ⟨0xffffffff⟩ config).outcome = .ok r ∧
      (r.table.name == "narrow" && decide (∀ p ∈ r.table.primitives, ∀ i ∈ p.implementations,
        i.requiresAlignment = true → r.alignment < i.alignment)) = true :=
    exists_of_okAnd (by decide)
  rw [Bool.and_eq_true, beq_iff_eq, decide_eq_true_eq] at passed
  obtain ⟨detected, mask, -, binds⟩ := new_forced_binds padded ⟨0xffffffff⟩ config r rfl ok
  exact ⟨rfl, r, ok, passed.1, detected, mask, binds.mpr passed.2 config.overrides r ok⟩

/-- On the first of these tables, the aligned slot is not bound to a generic implementation. -/
theorem forced_binds_needing_boundary :
    let config : Config := { forceGeneric := true }
    Machines.validate padded = .ok () ∧
      ∃ r b, (new padded ⟨0xffffffff⟩ config).outcome = .ok r ∧
        r.binding "sum_of_poly" = .ok b ∧ b.aligned.name = "quick" ∧
        b.aligned.isGeneric = false ∧ ¬ r.BindsGeneric := by
  intro config
  obtain ⟨r, ok, passed⟩ : ∃ r, (new padded ⟨0xffffffff⟩ config).outcome = .ok r ∧
      (r.table.primitives.any (·.name == "sum_of_poly") && okAnd (fun b =>
        b.aligned.name == "quick" && !b.aligned.isGeneric) (r.binding "sum_of_poly")) = true :=
    exists_of_okAnd (by decide)
  rw [Bool.and_eq_true, List.any_eq_true] at passed
  obtain ⟨⟨p, member, named⟩, passed⟩ := passed
  rw [beq_iff_eq] at named
  obtain ⟨b, bound, passed⟩ := exists_of_okAnd passed
  rw [Bool.and_eq_true, beq_iff_eq, Bool.not_eq_true'] at passed
  refine ⟨by decide, r, b, ok, bound, passed.1, passed.2, fun binds => ?_⟩
  obtain ⟨b', bound', generic⟩ := binds p member
  rw [named, bound] at bound'
  cases bound'
  exact Bool.false_ne_true (passed.2.symm.trans (generic .aligned))

end Resolution
end SimdDispatch
