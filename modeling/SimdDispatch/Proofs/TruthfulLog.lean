import SimdDispatch.Proofs.Log
import SimdDispatch.Proofs.Refusal

/-!
The log of a successful resolution against its result. Every slot that holds something other than
its preference has left one warning, and no other slot has left any.
-/
namespace SimdDispatch.Resolution

/-- All that a configuration takes away of what is present is logged at once, if it is anything. -/
theorem effective_events {config : Config} {disabled : CapabilitySet}
    (read : config.disabledSet = .ok disabled) (requested : CapabilitySet) :
    (effective requested config).events =
      if config.forceGeneric then [.forcedGeneric]
      else if (requested ∪ .generic) ∩ disabled = ∅ then []
      else [.capabilitiesDisabled ((requested ∪ .generic) ∩ disabled)] := by
  have start {α : Type} (next : CapabilitySet → Traced α) :
      (Traced.lift config.disabledSet >>= next) = next disabled := by
    rw [read]
    rfl
  unfold effective
  cases config.forceGeneric with
  | true => rfl
  | false =>
    simp only [Bool.false_eq_true, if_false, start]
    by_cases nothing : (requested ∪ .generic) ∩ disabled = ∅
    · simp [nothing, CapabilitySet.isEmpty]
    · have some : (!((requested ∪ .generic) ∩ disabled).isEmpty) = true := by
        simpa [CapabilitySet.isEmpty] using nothing
      rw [if_pos some, if_neg nothing]
      rfl

end SimdDispatch.Resolution
