import SimdDispatch.Proofs.NamedCalls
import SimdDispatch.Proofs.SlotAlignment

/-!
Calls through the slots of a registry beside calls by name. A slot holds the kernel of an entry of
the very list in which names are looked up, so that both calls run the same kernel; what the contract
of the slot promises covers the boundary of that entry, so that neither call fails.
-/
namespace SimdDispatch

theorem Table.isPowerOfTwo_boundary (t : Table) (contract : Contract) :
    isPowerOfTwo (t.boundary contract) = true := by
  cases contract with
  | aligned => exact t.wellFormed.power
  | unaligned => exact isPowerOfTwo_iff.mpr ⟨0, rfl⟩

namespace Registry

/-- The addresses of a call are as its contract promises: aligned calls with an input start every
buffer on the boundary of the machine, all others promise nothing. -/
def Keeps (r : Registry) (contract : Contract) (size : Nat) (addresses : List Nat) : Prop :=
  contract = .aligned → size ≠ 0 → ∀ a ∈ addresses, r.alignment ∣ a

theorem Keeps.boundary {r : Registry} {contract : Contract} {size : Nat} {addresses : List Nat}
    (keeps : r.Keeps contract size addresses) (occupied : size ≠ 0) {a : Nat}
    (member : a ∈ addresses) : r.machine.boundary contract ∣ a := by
  cases contract with
  | aligned => exact keeps rfl occupied a member
  | unaligned => exact Nat.one_dvd a

/-- What the slots of a shape hold: kernels of entries of the host, bound to its name. -/
structure SlotsOf (r : Registry) {κ : Type} (variant? : Implementation → Option κ) (s : Slots κ)
    (p : Primitive) (b : Binding) : Prop where
  found : r.resolution.binding p.name = .ok b
  listed : ∀ contract, b.for contract ∈ p.implementations
  kernel : ∀ contract, variant? (b.for contract) = some (s.for contract)
  covered : ∀ contract, (b.for contract).alignment ∣ r.machine.boundary contract

section Built

variable {cpu requested : CapabilitySet} {tables : List Table} {config : Config} {r : Registry}

theorem Built.exists_slotsOf (built : Built cpu tables requested config r) {shape : Shape} {κ : Type}
    {variant? : Implementation → Option κ} {s : Slots κ}
    (filled : slots r.resolution shape variant? = .ok s) :
    ∃ p b, r.Hosts shape p ∧ r.SlotsOf variant? s p b := by
  obtain ⟨p, hosts⟩ := built.exists_host shape
  have resolved := Resolution.resolved_of_ok built.resolved
  obtain ⟨b, found, fills⟩ := resolved.binding hosts.member
  obtain ⟨b', looked, kernels⟩ := slots_eq_ok_iff.mp filled
  have same : b = b' := by
    rw [Resolution.binding, hosts.named, looked] at found
    exact (Except.ok.inj found).symm
  subst same
  refine ⟨p, b, hosts, found, fun contract => (fills contract).mem, kernels, fun contract => ?_⟩
  have power := (hosts.wellFormed.entries _ (fills contract).mem).power
  exact dvd_of_isPowerOfTwo power (r.machine.isPowerOfTwo_boundary contract) (fills contract).fits

end Built

section Slots

variable {r : Registry} {p : Primitive} {b : Binding}

theorem SlotsOf.sum_agrees (slotted : r.SlotsOf Implementation.sumOfPoly? r.sumOfPoly p b)
    (hosts : r.Hosts .sumOfPoly p) {contract : Contract} {input : Slice Single}
    (keeps : r.Keeps contract input.size [input.address]) (c : Coefficients Single)
    (cutoff : Single) :
    ∃ value, r.sum contract input c cutoff = .ok value ∧
      r.sumWith (b.for contract).name input c cutoff = .ok value := by
  have kernel := Implementation.sumOfPoly?_eq_some_iff.mp (slotted.kernel contract)
  have onBoundary : input.size ≠ 0 → (b.for contract).alignment ∣ input.address := fun occupied =>
    (slotted.covered contract).trans (keeps.boundary occupied List.mem_cons_self)
  have sufficient := (b.for contract).sufficient
  rw [kernel] at sufficient
  obtain ⟨value, ran⟩ := SumOfPoly.exists_run (fun occupied => sufficient.trans (onBoundary occupied))
    c cutoff
  refine ⟨value, accessed_eq_ok_iff.mpr ran, hosts.sumWith_eq_ok_iff.mpr ?_⟩
  exact ⟨b.for contract, slotted.listed contract, rfl, onBoundary, _, kernel, ran⟩

theorem SlotsOf.split_agrees (slotted : r.SlotsOf Implementation.deinterleave? r.deinterleave p b)
    (hosts : r.Hosts .deinterleave p) {contract : Contract} {real imag : Slice Single}
    {input : Slice (Complex Single)} (realRoom : input.size ≤ real.size)
    (imagRoom : input.size ≤ imag.size)
    (keeps : r.Keeps contract input.size [input.address, real.address, imag.address]) :
    ∃ out, r.split contract real imag input = .ok out ∧
      r.splitWith (b.for contract).name real imag input = .ok out := by
  have kernel := Implementation.deinterleave?_eq_some_iff.mp (slotted.kernel contract)
  have onBoundary : input.size ≠ 0 → ∀ a ∈ [input.address, real.address, imag.address],
      (b.for contract).alignment ∣ a := fun occupied a member =>
    (slotted.covered contract).trans (keeps.boundary occupied member)
  have sufficient := (b.for contract).sufficient
  rw [kernel] at sufficient
  have accepts : (r.deinterleave.for contract).Accepts input (real, imag) := by
    refine ⟨realRoom, imagRoom, fun occupied => ?_⟩
    have each := onBoundary occupied
    exact ⟨sufficient.trans (each _ (by simp)), sufficient.trans (each _ (by simp)),
      sufficient.trans (each _ (by simp))⟩
  obtain ⟨out, ran, -⟩ := Deinterleave.run_splitUpTo accepts
  have room := checkOutputs_eq_ok_iff.mpr ⟨realRoom, imagRoom⟩
  refine ⟨out, (bind_of_success room _).trans (accessed_eq_ok_iff.mpr ran), ?_⟩
  refine hosts.splitWith_eq_ok_iff.mpr ?_
  exact ⟨b.for contract, slotted.listed contract, rfl, realRoom, imagRoom, onBoundary, _, kernel, ran⟩

end Slots

/-- On buffers that keep the promise of a contract the call through the slot of that contract and
the call by the name bound to it both succeed, with the same result. Unaligned calls promise nothing
about addresses. -/
theorem slots_agree_with_names (cpu requested : CapabilitySet) (tables : List Table)
    (config : Config) (r : Registry)
    (ok : (new cpu tables requested config).outcome = .ok r) :
    (∃ b, r.resolution.binding "sum_of_poly" = .ok b ∧
      ∀ (contract : Contract) (input : Slice Single) (c : Coefficients Single) (cutoff : Single),
        r.Keeps contract input.size [input.address] →
          ∃ value, r.sum contract input c cutoff = .ok value ∧
            r.sumWith (b.for contract).name input c cutoff = .ok value) ∧
    ∃ b, r.resolution.binding "deinterleave" = .ok b ∧
      ∀ (contract : Contract) (real imag : Slice Single) (input : Slice (Complex Single)),
        input.size ≤ real.size → input.size ≤ imag.size →
        r.Keeps contract input.size [input.address, real.address, imag.address] →
          ∃ out, r.split contract real imag input = .ok out ∧
            r.splitWith (b.for contract).name real imag input = .ok out := by
  have built := built_of_ok ok
  constructor
  · obtain ⟨p, b, hosts, slotted⟩ := built.exists_slotsOf built.sumOfPoly
    have found := slotted.found
    rw [hosts.named] at found
    exact ⟨b, found, fun contract input c cutoff keeps => slotted.sum_agrees hosts keeps c cutoff⟩
  · obtain ⟨p, b, hosts, slotted⟩ := built.exists_slotsOf built.deinterleave
    have found := slotted.found
    rw [hosts.named] at found
    exact ⟨b, found, fun contract real imag input realRoom imagRoom keeps =>
      slotted.split_agrees hosts realRoom imagRoom keeps⟩

/-- A preference for less than the boundary of the machine, met in the aligned slot, and three buffers
for the other slot, none of which starts on that boundary. -/
theorem slots_agree_with_names_of_preference :
    let cpu := CapabilitySet.ofList [.generic, .sse, .sse2, .sse3, .ssse3, .sse41, .avx, .fma]
    let config : Config := { overrides := .ofList [("sum_of_poly", { aligned := "a_sse3" })] }
    let input : Slice Single := ⟨96, .replicate 11 ⟨0x3f800000⟩⟩
    let samples : Slice (Complex Single) := ⟨148, .replicate 9 ⟨⟨1⟩, ⟨2⟩⟩⟩
    let real : Slice Single := ⟨228, .replicate 12 ⟨3⟩⟩
    let imag : Slice Single := ⟨284, .replicate 9 ⟨4⟩⟩
    let c : Coefficients Single := ⟨⟨1⟩, ⟨2⟩, ⟨3⟩, ⟨4⟩, ⟨5⟩⟩
    ∃ r, (new cpu Machines.builtin ⟨0xffffffff⟩ config).outcome = .ok r ∧
      r.Keeps .aligned input.size [input.address] ∧
      (∃ value, r.sum .aligned input c ⟨0⟩ = .ok value ∧
        r.sumWith "a_sse3" input c ⟨0⟩ = .ok value) ∧
      r.Keeps .unaligned samples.size [samples.address, real.address, imag.address] ∧
      ∃ out, r.split .unaligned real imag samples = .ok out ∧
        r.splitWith "u_avx" real imag samples = .ok out := by
  intro cpu config input samples real imag c
  obtain ⟨r, ok, passed⟩ : ∃ r, (new cpu Machines.builtin ⟨0xffffffff⟩ config).outcome = .ok r ∧
      (r.alignment == 32 &&
        okAnd (·.aligned.name == "a_sse3") (r.resolution.binding "sum_of_poly") &&
        okAnd (·.unaligned.name == "u_avx") (r.resolution.binding "deinterleave")) = true :=
    exists_of_okAnd (by decide)
  rw [Bool.and_eq_true, Bool.and_eq_true, beq_iff_eq] at passed
  obtain ⟨⟨boundary, sums⟩, splits⟩ := passed
  obtain ⟨⟨b, bound, sum⟩, b', bound', split⟩ :=
    slots_agree_with_names cpu ⟨0xffffffff⟩ Machines.builtin config r ok
  rw [bound] at sums
  rw [bound'] at splits
  have named : b.aligned.name = "a_sse3" := beq_iff_eq.mp sums
  have named' : b'.unaligned.name = "u_avx" := beq_iff_eq.mp splits
  have keeps : r.Keeps .aligned input.size [input.address] := by
    intro _ _ a member
    rw [List.mem_singleton.mp member, boundary]
    decide
  have keeps' : r.Keeps .unaligned samples.size
      [samples.address, real.address, imag.address] := by
    intro promised
    cases promised
  refine ⟨r, ok, keeps, ?_, keeps', ?_⟩
  · exact named ▸ sum .aligned input c ⟨0⟩ keeps
  · exact named' ▸ split .unaligned real imag samples (by decide) (by decide) keeps'

end Registry
end SimdDispatch
