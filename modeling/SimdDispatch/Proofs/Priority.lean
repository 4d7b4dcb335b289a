import SimdDispatch.Proofs.Bindings

/-!
Places in a list of priorities. A search whose test is weaker stops no later, so that more
capabilities and a larger boundary can only move a choice towards the front. A list that a mask
filtered is searched as the whole list with only what the mask has.
-/
namespace SimdDispatch

theorem find?_no_later {α : Type} [DecidableEq α] {strict loose : α → Bool} {items : List α}
    (weaker : ∀ x ∈ items, strict x = true → loose x = true) {x : α}
    (found : items.find? strict = some x) :
    ∃ y, items.find? loose = some y ∧ items.idxOf y ≤ items.idxOf x := by
  induction items with
  | nil => cases found
  | cons a rest ih =>
    cases passes : loose a with
    | true => exact ⟨a, List.find?_cons_of_pos passes, by simp⟩
    | false =>
      have fails : ¬ strict a = true := fun held => by
        rw [weaker a List.mem_cons_self held] at passes
        cases passes
      have unlike {z : α} (test : α → Bool) (first : ¬ test a = true) (held : test z = true) :
          a ≠ z := fun same => first (same ▸ held)
      rw [List.find?_cons_of_neg fails] at found
      obtain ⟨y, later, place⟩ := ih (fun z member => weaker z (List.mem_cons_of_mem a member)) found
      have skips : ¬ loose a = true := by simp [passes]
      refine ⟨y, by rw [List.find?_cons_of_neg skips, later], ?_⟩
      rw [List.idxOf_cons_ne _ (unlike loose skips (List.find?_some later)),
        List.idxOf_cons_ne _ (unlike strict fails (List.find?_some found))]
      exact Nat.succ_le_succ place

theorem Implementation.isEligible_mono {i : Implementation} {fewer more : CapabilitySet}
    {small large : Nat} (inside : fewer ⊆ more) (le : small ≤ large)
    (eligible : i.isEligible fewer small = true) : i.isEligible more large = true := by
  simp only [isEligible, Bool.and_eq_true, decide_eq_true_eq] at eligible ⊢
  exact ⟨CapabilitySet.subset_trans eligible.1 inside, Nat.le_trans eligible.2 le⟩

namespace Primitive

/-- The place of an entry in the list, counted from the highest priority. -/
def place (p : Primitive) (i : Implementation) : Nat := p.implementations.idxOf i

variable {p : Primitive} {i : Implementation} {detected : CapabilitySet} {boundary : Nat}

theorem resolve_no_later {more : CapabilitySet} {large : Nat} (inside : detected ⊆ more)
    (le : boundary ≤ large) (found : p.resolve detected boundary = some i) :
    ∃ j, p.resolve more large = some j ∧ p.place j ≤ p.place i :=
  find?_no_later (fun _ _ => Implementation.isEligible_mono inside le) found

theorem resolve_filtered (p : Primitive) (mask detected : CapabilitySet) (boundary : Nat) :
    (p.filtered mask).resolve detected boundary = p.resolve (mask ∩ detected) boundary := by
  unfold resolve filtered
  rw [List.find?_filter]
  congr
  funext i
  simp [Implementation.isEligible, CapabilitySet.subset_inter_iff, Bool.and_assoc]

/-- Without a preference, where all of a list is covered, a slot is filled as the search does. -/
theorem Fills.resolve (filled : p.Fills boundary none i)
    (covered : ∀ j ∈ p.implementations, j.required ⊆ detected) :
    p.resolve detected boundary = some i := by
  have eligible {j : Implementation} (listed : j ∈ p.implementations) :=
    Implementation.isEligible_of_covered (covered j listed) boundary
  cases filled with
  | preferred _ named => cases named
  | first before after split fits earlier =>
    refine List.find?_eq_some_iff_append.mpr ⟨?_, before, after, split, fun j early => ?_⟩
    · rw [eligible (by rw [split]; simp), decide_eq_true_eq]
      exact fits
    · rw [eligible (by rw [split]; simp [early]), Bool.not_eq_true', decide_eq_false_iff_not]
      exact Nat.not_le_of_lt (earlier j early)

end Primitive
end SimdDispatch
