import SimdDispatch.Proofs.Registry

/-!
The boundaries of bound implementations. Slots are filled by comparing boundaries as numbers; that
is sound because tables and their entries admit no boundary but powers of two.
-/
namespace SimdDispatch

/-- What callers of the two slots rely on, boundary by boundary and address by address. -/
structure Resolution.SlotsAligned (r : Resolution) : Prop where
  power : r.alignment.isPowerOfTwo
  positive : 1 ≤ r.alignment
  bounded : r.alignment ≤ maxAlignment
  complete : r.bindings.map (·.1) = r.table.primitives.map (·.name)
  unaligned : ∀ entry ∈ r.bindings, entry.2.unaligned.alignment = 1
  aligned : ∀ entry ∈ r.bindings, entry.2.aligned.alignment ∣ r.alignment
  anywhere : ∀ entry ∈ r.bindings, ∀ address,
    isAligned address entry.2.unaligned.alignment = true
  onBoundary : ∀ entry ∈ r.bindings, ∀ address, isAligned address r.alignment = true →
    isAligned address entry.2.aligned.alignment = true
  onBlock : ∀ address, maxAlignment ∣ address → isAligned address r.alignment = true ∧
    ∀ entry ∈ r.bindings, isAligned address entry.2.aligned.alignment = true

namespace Resolution

theorem Resolved.boundary {tables : List Table} {requested : CapabilitySet} {config : Config}
    {r : Resolution} (resolved : Resolved tables requested config r) {entry : String × Binding}
    (member : entry ∈ r.bindings) (contract : Contract) :
    isPowerOfTwo (entry.2.for contract).alignment = true ∧
      (entry.2.for contract).alignment ≤ r.table.boundary contract := by
  obtain ⟨p, held, -, filled⟩ := forall₂_right resolved.bound member
  have wellFormed := (r.table.wellFormed.primitives p held).wellFormed
  exact ⟨(wellFormed.entries _ (filled contract).mem).power, (filled contract).fits⟩

theorem Resolved.slotsAligned {tables : List Table} {requested : CapabilitySet} {config : Config}
    {r : Resolution} (resolved : Resolved tables requested config r) : SlotsAligned r := by
  have power : isPowerOfTwo r.alignment = true := r.table.wellFormed.power
  have bounded : r.alignment ≤ maxAlignment := r.table.wellFormed.bounded
  have onBoundary : ∀ entry ∈ r.bindings, ∀ address, isAligned address r.alignment = true →
      isAligned address entry.2.aligned.alignment = true := by
    intro entry member address onTable
    obtain ⟨small, within⟩ := resolved.boundary member .aligned
    exact isAligned_of_le small power within onTable
  have unaligned : ∀ entry ∈ r.bindings, entry.2.unaligned.alignment = 1 := by
    intro entry member
    obtain ⟨small, within⟩ := resolved.boundary member .unaligned
    exact Nat.le_antisymm within (one_le_of_isPowerOfTwo small)
  refine ⟨isPowerOfTwo_iff.mp power, one_le_of_isPowerOfTwo power, bounded, resolved.names,
    unaligned, ?_, ?_, onBoundary, ?_⟩
  · intro entry member
    obtain ⟨small, within⟩ := resolved.boundary member .aligned
    exact dvd_of_isPowerOfTwo small power within
  · intro entry member address
    rw [unaligned entry member]
    exact isAligned_one address
  · intro address block
    have onTable : isAligned address r.alignment = true := by
      rw [isAligned_iff power]
      exact Nat.dvd_trans (dvd_of_isPowerOfTwo power (by decide) bounded) block
    exact ⟨onTable, fun entry member => onBoundary entry member address onTable⟩

end Resolution

/-- Whatever the tables, the request and the configuration, the slots of what is built are sound
for their contracts, in resolutions and in the registries made of them. -/
theorem slots_aligned (cpu requested : CapabilitySet) (tables : List Table) (config : Config) :
    (∀ r, (Resolution.new tables requested config).outcome = .ok r → r.SlotsAligned) ∧
      ∀ r, (Registry.new cpu tables requested config).outcome = .ok r →
        r.resolution.SlotsAligned ∧ ∀ address, r.isAligned address = true →
          ∀ entry ∈ r.bindings, isAligned address entry.2.aligned.alignment = true := by
  constructor
  · intro r ok
    exact (Resolution.resolved_of_ok ok).slotsAligned
  · intro r ok
    have sound := (Resolution.resolved_of_ok (Registry.built_of_ok ok).resolved).slotsAligned
    exact ⟨sound, fun address onTable entry member =>
      sound.onBoundary entry member address onTable⟩

/-- A preference for the aligned slot asks for a smaller boundary than that of the table, and one
for the unaligned slot for a boundary that no caller promises. -/
theorem slots_aligned_with_preferences :
    let cpu := CapabilitySet.ofList [.generic, .sse, .sse2, .sse3, .ssse3, .sse41, .avx, .fma]
    let config : Config :=
      { overrides := .ofList [("sum_of_poly", { aligned := "a_sse3", unaligned := "a_avx" })] }
    (∃ r, (Resolution.new Machines.builtin cpu config).outcome = .ok r ∧ r.SlotsAligned) ∧
      ∃ r, (Registry.new cpu Machines.builtin ⟨0xffffffff⟩ config).outcome = .ok r ∧
        r.alignment = 32 ∧ r.resolution.SlotsAligned := by
  intro cpu config
  constructor
  · obtain ⟨r, ok, -⟩ : ∃ r, (Resolution.new Machines.builtin cpu config).outcome = .ok r ∧
        (r.table.name == "avx_fma") = true := exists_of_okAnd (by decide)
    exact ⟨r, ok, (slots_aligned cpu cpu Machines.builtin config).1 r ok⟩
  · obtain ⟨r, ok, boundary⟩ : ∃ r,
        (Registry.new cpu Machines.builtin ⟨0xffffffff⟩ config).outcome = .ok r ∧
          (r.alignment == 32) = true := exists_of_okAnd (by decide)
    obtain ⟨-, ofRegistries⟩ := slots_aligned cpu ⟨0xffffffff⟩ Machines.builtin config
    exact ⟨r, ok, by simpa using boundary, (ofRegistries r ok).1⟩

end SimdDispatch
