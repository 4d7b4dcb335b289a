import SimdDispatch.Proofs.Fallback
import SimdDispatch.Proofs.Priority

/-!
What the promise of a boundary is worth. Both slots of a primitive are filled from one list and with
the same capabilities, so the larger boundary of aligned calls can only move the choice to the front,
and only to an entry that needs the promise. Preferences that no slot could take change nothing in it.
-/
namespace SimdDispatch

namespace Primitive

variable {p : Primitive} {detected : CapabilitySet} {small large : Nat} {i j : Implementation}

theorem resolve_of_eligible (le : small ≤ large) (found : p.resolve detected large = some j)
    (eligible : j.isEligible detected small = true) : p.resolve detected small = some j := by
  obtain ⟨-, before, after, split, earlier⟩ := List.find?_eq_some_iff_append.mp found
  refine List.find?_eq_some_iff_append.mpr ⟨eligible, before, after, split, fun k early => ?_⟩
  -- what comes before the choice under the larger boundary is eligible under neither
  have refused : ¬ k.isEligible detected large = true := by simpa using earlier k early
  have refused' : ¬ k.isEligible detected small = true := fun held =>
    refused (Implementation.isEligible_mono (CapabilitySet.subset_refl detected) le held)
  simpa using refused'

theorem isEligible_of_resolve (found : p.resolve detected small = some i) :
    i.required ⊆ detected ∧ i.alignment ≤ small := by
  have held : i.isEligible detected small = true :=
    (List.find?_eq_some_iff_append.mp found).1
  simpa [Implementation.isEligible] using held

/-- Two choices differ exactly if the one under the larger boundary needs more than the smaller. -/
theorem resolve_ne_iff (le : small ≤ large) (found : p.resolve detected small = some i)
    (found' : p.resolve detected large = some j) : j ≠ i ↔ small < j.alignment := by
  constructor
  · intro differ
    refine Nat.lt_of_not_le fun within => differ ?_
    have eligible : j.isEligible detected small = true := by
      simp [Implementation.isEligible, (isEligible_of_resolve found').1, within]
    have again := resolve_of_eligible le found' eligible
    exact Option.some.inj (again.symm.trans found)
  · rintro beyond rfl
    exact Nat.not_le.mpr beyond (isEligible_of_resolve found).2

end Primitive

namespace Resolution

/-- A slot can take no preference: there is none, or what it names is not eligible there. -/
def Unmet (r : Resolution) (config : Config) (p : Primitive) (contract : Contract) : Prop :=
  ∀ name ∈ config.preferred p.name contract, ∀ i ∈ p.find? name,
    i.isEligible r.detected (r.table.boundary contract) = false

instance (r : Resolution) (config : Config) (p : Primitive) (contract : Contract) :
    Decidable (Unmet r config p contract) :=
  inferInstanceAs (Decidable (∀ name ∈ config.preferred p.name contract, ∀ i ∈ p.find? name,
    i.isEligible r.detected (r.table.boundary contract) = false))

section Slots

variable {tables : List Table} {requested : CapabilitySet} {config : Config} {r : Resolution}
  {p : Primitive}

theorem Resolved.resolve_of_unmet (resolved : Resolved tables requested config r)
    (member : p ∈ r.table.primitives) {contract : Contract} (unmet : Unmet r config p contract)
    {i : Implementation}
    (filled : p.Fills (r.table.boundary contract) (config.preferred p.name contract) i) :
    p.resolve r.detected (r.table.boundary contract) = some i := by
  have covered := Table.covered_of_runs member resolved.chosen.runs
  have distinct := (r.table.wellFormed.primitives p member).wellFormed.distinct
  have unnamed : config.preferred p.name contract ≠ some i.name := by
    intro named
    have found : p.find? i.name = some i :=
      (find?_name_eq_some_iff _ distinct).mpr ⟨filled.mem, rfl⟩
    have refused := unmet i.name named i found
    rw [Implementation.isEligible_of_covered (covered i filled.mem), decide_eq_false_iff_not]
      at refused
    exact refused filled.fits
  exact (filled.first_of_unmet unnamed).resolve covered

end Slots

/-- Where no preference could be taken, the aligned slot holds an entry at the same place of the list
as the other one or an earlier one, and another entry exactly if it needs a boundary at all. Whatever
the list, a larger boundary loses no choice and moves it to no later place. -/
theorem new_aligned_no_later (tables : List Table) (requested : CapabilitySet) (config : Config)
    (r : Resolution) (ok : (new tables requested config).outcome = .ok r) :
    (∀ p ∈ r.table.primitives, (∀ contract, Unmet r config p contract) →
      ∃ b, r.binding p.name = .ok b ∧ (∀ contract, b.for contract ∈ p.implementations) ∧
        p.place b.aligned ≤ p.place b.unaligned ∧
        (b.aligned ≠ b.unaligned ↔ b.aligned.requiresAlignment = true)) ∧
    ∀ (p : Primitive) (detected : CapabilitySet) (small large : Nat), small ≤ large →
      ∀ i, p.resolve detected small = some i →
        ∃ j, p.resolve detected large = some j ∧ p.place j ≤ p.place i := by
  constructor
  · intro p member unmet
    have resolved := resolved_of_ok ok
    obtain ⟨b, found, filled⟩ := resolved.binding member
    have aligned : p.resolve r.detected r.table.alignment = some b.aligned :=
      resolved.resolve_of_unmet member (unmet .aligned) (filled .aligned)
    have unaligned : p.resolve r.detected 1 = some b.unaligned :=
      resolved.resolve_of_unmet member (unmet .unaligned) (filled .unaligned)
    have promised : 1 ≤ r.table.alignment := r.table.one_le_boundary .aligned
    refine ⟨b, found, fun contract => (filled contract).mem, ?_, ?_⟩
    · obtain ⟨j, searched, place⟩ :=
        Primitive.resolve_no_later (CapabilitySet.subset_refl r.detected) promised unaligned
      cases aligned.symm.trans searched
      exact place
    · rw [Primitive.resolve_ne_iff promised unaligned aligned, Implementation.requiresAlignment,
        decide_eq_true_eq]
  · intro p detected small large le i found
    exact Primitive.resolve_no_later (CapabilitySet.subset_refl detected) le found

/-- Two preferences that are passed over: one that the machine does not have, and one whose boundary
is too large for the slot. The slots still differ, as without them. -/
theorem new_aligned_no_later_passing_over :
    let config : Config :=
      { overrides := .ofList [("sum_of_poly", { aligned := "a_avx_fma", unaligned := "a_sse3" })] }
    let given : CapabilitySet := .ofList [.generic, .sse, .sse2, .sse3, .ssse3, .sse41, .avx]
    ∃ r p b j, (new Machines.builtin given config).outcome = .ok r ∧ p ∈ r.table.primitives ∧
      (∀ contract, Unmet r config p contract) ∧ r.binding p.name = .ok b ∧
      p.place b.aligned ≤ p.place b.unaligned ∧ b.aligned ≠ b.unaligned ∧
      Catalog.sumOfPoly.resolve given 1 = some b.unaligned ∧
      Catalog.sumOfPoly.resolve given 16 = some j ∧
      Catalog.sumOfPoly.place j ≤ Catalog.sumOfPoly.place b.unaligned := by
  intro config given
  obtain ⟨r, ok, passed⟩ : ∃ r, (new Machines.builtin given config).outcome = .ok r ∧
      (r.table.primitives.any fun p => Unmet r config p .aligned ∧ Unmet r config p .unaligned ∧
        okAnd (fun b => b.aligned.requiresAlignment &&
          Catalog.sumOfPoly.resolve given 1 == some b.unaligned) (r.binding p.name) = true) = true :=
    exists_of_okAnd (by decide)
  obtain ⟨p, member, passed⟩ := List.any_eq_true.mp passed
  obtain ⟨unmet, unmet', passed⟩ := of_decide_eq_true passed
  have unmet : ∀ contract, Unmet r config p contract := by
    rintro (_ | _)
    · exact unmet
    · exact unmet'
  obtain ⟨b, bound, passed⟩ := exists_of_okAnd passed
  rw [Bool.and_eq_true, beq_iff_eq] at passed
  obtain ⟨slots, grows⟩ := new_aligned_no_later Machines.builtin given config r ok
  obtain ⟨b', bound', -, place, differ⟩ := slots p member unmet
  rw [bound] at bound'
  cases bound'
  obtain ⟨j, found, place'⟩ := grows Catalog.sumOfPoly given 1 16 (by decide) _ passed.2
  exact ⟨r, p, b, j, ok, member, unmet, bound, place, differ.mpr passed.1, passed.2, found, place'⟩

end Resolution
end SimdDispatch
