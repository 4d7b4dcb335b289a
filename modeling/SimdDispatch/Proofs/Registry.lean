import SimdDispatch.Call
import SimdDispatch.Proofs.Resolution

/-!
Registries over the resolutions they are made of, and the ways in which an implementation can be
reached through one.
-/
namespace SimdDispatch

theorem Implementation.sumOfPoly?_eq_some_iff {i : Implementation} {v : SumOfPoly.Variant} :
    i.sumOfPoly? = some v ↔ i.kernel = .sumOfPoly v := by
  unfold sumOfPoly?
  cases i.kernel <;> simp

theorem Implementation.deinterleave?_eq_some_iff {i : Implementation} {v : Deinterleave.Variant} :
    i.deinterleave? = some v ↔ i.kernel = .deinterleave v := by
  unfold deinterleave?
  cases i.kernel <;> simp

namespace Registry

theorem slots_eq_ok_iff {κ : Type} {r : Resolution} {shape : Shape}
    {variant? : Implementation → Option κ} {s : Slots κ} :
    slots r shape variant? = .ok s ↔
      ∃ b, r.bindings.lookup shape.name = some b ∧
        ∀ contract, variant? (b.for contract) = some (s.for contract) := by
  unfold slots
  constructor
  · intro ok
    split at ok
    · cases ok
    · rename_i b found
      split at ok
      · rename_i a u aligned unaligned
        cases ok
        refine ⟨b, found, fun contract => ?_⟩
        cases contract with
        | aligned => exact aligned
        | unaligned => exact unaligned
      · cases ok
  · rintro ⟨b, found, both⟩
    have aligned : variant? b.aligned = some s.aligned := both .aligned
    have unaligned : variant? b.unaligned = some s.unaligned := both .unaligned
    simp only [found, aligned, unaligned]

theorem new_outcome (cpu : CapabilitySet) (tables : List Table) (requested : CapabilitySet)
    (config : Config) :
    (new cpu tables requested config).outcome =
      (Resolution.new tables (requested ∩ cpu) config).outcome >>= fun resolution =>
        slots resolution .sumOfPoly Implementation.sumOfPoly? >>= fun sumOfPoly =>
          slots resolution .deinterleave Implementation.deinterleave? >>= fun deinterleave =>
            .ok ⟨resolution, sumOfPoly, deinterleave⟩ := by
  refine (Traced.outcome_log_if _ _ _).trans ?_
  simp only [Traced.outcome_bind, Traced.outcome_lift]
  rfl

/-- A registry is the resolution of what its processor has of the capabilities requested, with
slots that hold the kernels bound by it. -/
structure Built (cpu : CapabilitySet) (tables : List Table) (requested : CapabilitySet)
    (config : Config) (r : Registry) : Prop where
  resolved : (Resolution.new tables (requested ∩ cpu) config).outcome = .ok r.resolution
  sumOfPoly : slots r.resolution .sumOfPoly Implementation.sumOfPoly? = .ok r.sumOfPoly
  deinterleave : slots r.resolution .deinterleave Implementation.deinterleave? = .ok r.deinterleave

theorem built_of_ok {cpu requested : CapabilitySet} {tables : List Table} {config : Config}
    {r : Registry} (ok : (new cpu tables requested config).outcome = .ok r) :
    Built cpu tables requested config r := by
  rw [new_outcome] at ok
  obtain ⟨resolution, resolved, ok⟩ := bind_success ok
  obtain ⟨sumOfPoly, first, ok⟩ := bind_success ok
  obtain ⟨deinterleave, second, ok⟩ := bind_success ok
  cases ok
  exact ⟨resolved, first, second⟩

/-- The implementations that can be reached through a registry: those bound to the slots of its
primitives, and those of its machine that are looked up by name or listed. -/
inductive Invocable (r : Registry) : Implementation → Prop
  | bound (primitive : String) (b : Binding) (contract : Contract)
      (entry : (primitive, b) ∈ r.bindings) : Invocable r (b.for contract)
  | named (primitive name : String) (i : Implementation)
      (found : r.implementation primitive name = .ok i) : Invocable r i
  | listed (primitive : String) (entries : List Implementation) (i : Implementation)
      (eligible : r.eligible primitive = .ok entries) (member : i ∈ entries) : Invocable r i

/-- The kernels that the entry points of a registry run. -/
inductive Runs (r : Registry) : Kernel → Prop
  | sum (contract : Contract) : Runs r (.sumOfPoly (r.sumOfPoly.for contract))
  | split (contract : Contract) : Runs r (.deinterleave (r.deinterleave.for contract))
  | sumWith (name : String) (i : Implementation) (v : SumOfPoly.Variant)
      (found : r.named .sumOfPoly Implementation.sumOfPoly? name = .ok (i, v)) :
      Runs r (.sumOfPoly v)
  | splitWith (name : String) (i : Implementation) (v : Deinterleave.Variant)
      (found : r.named .deinterleave Implementation.deinterleave? name = .ok (i, v)) :
      Runs r (.deinterleave v)

theorem eligible_of_mem {r : Registry} {p : Primitive} (member : p ∈ r.machine.primitives) :
    r.eligible p.name = .ok p.implementations := by
  rw [eligible, Table.primitive_eq_ok_iff.mpr ⟨member, rfl⟩]
  rfl

theorem implementation_eq_ok {r : Registry} {primitive name : String} {i : Implementation}
    (ok : r.implementation primitive name = .ok i) :
    ∃ p ∈ r.machine.primitives, i ∈ p.implementations := by
  obtain ⟨p, held, ok⟩ := bind_success ok
  split at ok
  · rename_i j found
    cases ok
    exact ⟨p, (Table.primitive_eq_ok_iff.mp held).1, List.mem_of_find?_eq_some found⟩
  · cases ok

theorem named_eq_ok {κ : Type} {r : Registry} {shape : Shape} {variant? : Implementation → Option κ}
    {name : String} {i : Implementation} {kernel : κ}
    (ok : r.named shape variant? name = .ok (i, kernel)) :
    r.implementation shape.name name = .ok i ∧ variant? i = some kernel := by
  obtain ⟨j, looked, ok⟩ := bind_success ok
  split at ok
  · rename_i k read
    cases ok
    cases found : r.implementation shape.name name with
    | error e => rw [found] at looked; cases looked
    | ok j => rw [found] at looked; cases looked; exact ⟨rfl, read⟩
  · cases ok

theorem invocable_of_slots {κ : Type} {r : Registry} {shape : Shape}
    {variant? : Implementation → Option κ} {s : Slots κ}
    (ok : slots r.resolution shape variant? = .ok s) (contract : Contract) :
    ∃ i, r.Invocable i ∧ variant? i = some (s.for contract) := by
  obtain ⟨b, found, both⟩ := slots_eq_ok_iff.mp ok
  obtain ⟨before, after, split, -⟩ := List.lookup_eq_some_iff.mp found
  have entry : (shape.name, b) ∈ r.bindings := by
    show (shape.name, b) ∈ r.resolution.bindings
    rw [split]
    simp
  exact ⟨b.for contract, .bound shape.name b contract entry, both contract⟩

end Registry
end SimdDispatch
