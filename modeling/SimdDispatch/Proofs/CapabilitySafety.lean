import SimdDispatch.Proofs.Registry

/-!
No call through a registry runs a kernel that needs more than its processor has and its
configuration leaves. The calls by name test no capability; they rest on what tables may hold.
-/
namespace SimdDispatch.Registry

theorem primitives_of_invocable {config : Config} {r : Registry}
    (bound : List.Forall₂ (Resolution.Bound r.machine config) r.machine.primitives r.bindings)
    {i : Implementation} (reached : r.Invocable i) :
    ∃ p ∈ r.machine.primitives, i ∈ p.implementations := by
  cases reached with
  | bound primitive b contract entry =>
    obtain ⟨p, member, -, filled⟩ := forall₂_right bound entry
    exact ⟨p, member, (filled contract).mem⟩
  | named primitive name _ found => exact implementation_eq_ok found
  | listed primitive entries _ eligible member =>
    unfold Registry.eligible at eligible
    cases held : r.machine.primitive primitive with
    | error e => rw [held] at eligible; cases eligible
    | ok p =>
      rw [held] at eligible
      cases eligible
      exact ⟨p, (Table.primitive_eq_ok_iff.mp held).1, member⟩

theorem invocable_of_runs {cpu requested : CapabilitySet} {tables : List Table} {config : Config}
    {r : Registry} (built : Built cpu tables requested config r) {kernel : Kernel}
    (run : r.Runs kernel) : ∃ i, r.Invocable i ∧ i.kernel = kernel := by
  cases run with
  | sum contract =>
    obtain ⟨i, reached, read⟩ := invocable_of_slots built.sumOfPoly contract
    exact ⟨i, reached, Implementation.sumOfPoly?_eq_some_iff.mp read⟩
  | split contract =>
    obtain ⟨i, reached, read⟩ := invocable_of_slots built.deinterleave contract
    exact ⟨i, reached, Implementation.deinterleave?_eq_some_iff.mp read⟩
  | sumWith name i v found =>
    obtain ⟨looked, read⟩ := named_eq_ok found
    exact ⟨i, .named _ name i looked, Implementation.sumOfPoly?_eq_some_iff.mp read⟩
  | splitWith name i v found =>
    obtain ⟨looked, read⟩ := named_eq_ok found
    exact ⟨i, .named _ name i looked, Implementation.deinterleave?_eq_some_iff.mp read⟩

/-- The chain of inclusions that confines a registry: what can be reached needs no more than the
table assumes, the table no more than was left, and that no more than the processor has. -/
theorem new_confined (cpu requested : CapabilitySet) (tables : List Table) (config : Config)
    (r : Registry) (portable : .generic ∈ cpu)
    (ok : (new cpu tables requested config).outcome = .ok r) :
    .generic ∈ r.detected ∧ r.detected ⊆ cpu ∧
      (∀ spelling ∈ config.disabled, ∀ c, Capability.ofName? spelling = some c →
        c ∉ r.detected) ∧
      r.machine.mask ⊆ r.detected ∧
      (∀ i, r.Invocable i → i.required ⊆ r.detected) ∧
      ∀ kernel, r.Runs kernel → ∃ i, r.Invocable i ∧ i.kernel = kernel := by
  have built := built_of_ok ok
  have resolved := Resolution.resolved_of_ok built.resolved
  have left : r.detected = config.remaining (requested ∩ cpu) := resolved.detected
  have runs : r.machine.mask ⊆ r.detected := resolved.chosen.runs
  refine ⟨?_, ?_, ?_, runs, ?_, fun kernel run => invocable_of_runs built run⟩
  · rw [left]
    exact Config.generic_mem_remaining resolved.valid _
  · rw [left]
    exact Config.remaining_subset (CapabilitySet.inter_subset_right requested cpu) portable
  · intro spelling listed c read
    rw [left]
    exact Config.not_mem_remaining resolved.valid (Config.mem_taken.mpr ⟨spelling, listed, read⟩) _
  · intro i reached
    obtain ⟨p, member, listed⟩ := primitives_of_invocable resolved.bound reached
    exact Table.covered_of_runs member runs i listed

/-- Every bit is requested of a processor that has eight capabilities, one of which is taken away
under an odd spelling; a preference of the aligned slot asks for less than the best. -/
theorem new_confined_without_fma :
    let cpu := CapabilitySet.ofList [.generic, .sse, .sse2, .sse3, .ssse3, .sse41, .avx, .fma]
    let config : Config :=
      { disabled := [" F.m_A "], overrides := .ofList [("deinterleave", { aligned := "a_sse" })] }
    ∃ r, .generic ∈ cpu ∧ (new cpu Machines.builtin ⟨0xffffffff⟩ config).outcome = .ok r ∧
      r.machine.name = "avx" ∧ r.detected ⊆ cpu ∧ .fma ∉ r.detected ∧
      ∀ i, r.Invocable i → i.required ⊆ r.detected := by
  intro cpu config
  have portable : .generic ∈ cpu := by decide
  obtain ⟨r, ok, named⟩ : ∃ r, (new cpu Machines.builtin ⟨0xffffffff⟩ config).outcome = .ok r ∧
      (r.machine.name == "avx") = true := exists_of_okAnd (by decide)
  obtain ⟨-, inside, gone, -, reached, -⟩ := new_confined cpu _ _ config r portable ok
  exact ⟨r, portable, ok, by simpa using named, inside,
    gone " F.m_A " (by decide) .fma (by decide), reached⟩

end SimdDispatch.Registry
