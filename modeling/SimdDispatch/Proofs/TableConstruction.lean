import SimdDispatch.Proofs.Event
import SimdDispatch.Proofs.Machines

/-!
What the construction of a machine table accepts. The conditions are stated on the parts as they are
given, without the checks: bits against capabilities, boundaries as powers of two, the last entry by
what it requires. A table made holds its parts unchanged; a refusal names the table.
-/
namespace SimdDispatch

theorem Implementation.isGeneric_iff {i : Implementation} (power : isPowerOfTwo i.alignment = true) :
    i.isGeneric = true ↔ i.required ⊆ CapabilitySet.generic ∧ i.alignment = 1 := by
  have positive := one_le_of_isPowerOfTwo power
  rw [isGeneric, Bool.and_eq_true, decide_eq_true_eq, decide_eq_true_eq]
  exact and_congr_right fun _ => ⟨fun small => Nat.le_antisymm small positive, Nat.le_of_eq⟩

namespace Table

/-- What a table with capabilities `mask` asks of a primitive: of all entries, and of the last. -/
structure Admits (mask : CapabilitySet) (p : Primitive) : Prop where
  distinct : (p.implementations.map (·.name)).Nodup
  shaped : ∀ i ∈ p.implementations, i.shape = p.shape
  known : ∀ i ∈ p.implementations, i.required.OnlyKnown
  power : ∀ i ∈ p.implementations, i.alignment.isPowerOfTwo
  covered : ∀ i ∈ p.implementations, i.required ⊆ mask
  fallback : ∃ last, p.implementations.getLast? = some last ∧
    last.required ⊆ CapabilitySet.generic ∧ last.alignment = 1

theorem primitiveFits_iff {mask : CapabilitySet} {p : Primitive} :
    PrimitiveFits mask p ↔ Admits mask p := by
  constructor
  · rintro ⟨⟨distinct, entries, last, isLast, generic⟩, covered⟩
    have power := (entries last (List.mem_of_getLast? isLast)).power
    exact {
      distinct, covered
      shaped := fun i listed => (entries i listed).shaped
      known := fun i listed => CapabilitySet.unknown_isEmpty_iff.mp (entries i listed).known
      power := fun i listed => isPowerOfTwo_iff.mp (entries i listed).power
      fallback := ⟨last, isLast, (Implementation.isGeneric_iff power).mp generic⟩ }
  · rintro ⟨distinct, shaped, known, power, covered, last, isLast, portable⟩
    have entries : ∀ i ∈ p.implementations, Primitive.EntryFits p.shape i := fun i listed =>
      ⟨shaped i listed, CapabilitySet.unknown_isEmpty_iff.mpr (known i listed),
        isPowerOfTwo_iff.mpr (power i listed)⟩
    have lastPower := (entries last (List.mem_of_getLast? isLast)).power
    exact ⟨⟨distinct, entries, last, isLast, (Implementation.isGeneric_iff lastPower).mpr portable⟩,
      covered⟩

section Construction

variable {name : String} {mask : CapabilitySet} {alignment : Nat} {primitives : List Primitive}

theorem new_eq_ok_iff {t : Table} :
    new name mask alignment primitives = .ok t ↔
      t.name = name ∧ t.mask = mask ∧ t.alignment = alignment ∧ t.primitives = primitives := by
  constructor
  · intro ok
    unfold new at ok
    split at ok
    · cases ok
      exact ⟨rfl, rfl, rfl, rfl⟩
    · cases ok
  · rintro ⟨rfl, rfl, rfl, rfl⟩
    unfold new
    split
    · rfl
    · rename_i fault found
      rw [t.accepted] at found
      cases found

theorem new_eq_error {e : Error} (refused : new name mask alignment primitives = .error e) :
    ∃ fault, e = .invalidTable name fault := by
  unfold new at refused
  split at refused
  · cases refused
  · cases refused
    exact ⟨_, rfl⟩

theorem exists_new_iff :
    (∃ t, new name mask alignment primitives = .ok t) ↔ WellFormed mask alignment primitives := by
  constructor
  · rintro ⟨t, ok⟩
    obtain ⟨-, rfl, rfl, rfl⟩ := new_eq_ok_iff.mp ok
    exact t.wellFormed
  · intro wellFormed
    exact ⟨⟨name, mask, alignment, primitives, fault?_eq_none_iff.mpr wellFormed⟩,
      new_eq_ok_iff.mpr ⟨rfl, rfl, rfl, rfl⟩⟩

end Construction

/-- A table is made exactly of what satisfies all conditions. It holds what it was made of in the
order given, every primitive under its name and nothing under another one; otherwise the error is
about the table of this name. -/
theorem new_accepts_exactly (name : String) (mask : CapabilitySet) (alignment : Nat)
    (primitives : List Primitive) :
    ((∃ t, new name mask alignment primitives = .ok t) ↔
      alignment.isPowerOfTwo ∧ alignment ≤ 64 ∧ .generic ∈ mask ∧ mask.OnlyKnown ∧
        (primitives.map (·.name)).Nodup ∧ ∀ p ∈ primitives, Admits mask p) ∧
      (∀ t, new name mask alignment primitives = .ok t →
        t.name = name ∧ t.mask = mask ∧ t.alignment = alignment ∧ t.primitives = primitives ∧
          ∀ key p, t.primitive key = .ok p ↔ p ∈ primitives ∧ p.name = key) ∧
      ∀ e, new name mask alignment primitives = .error e →
        ∃ fault, e = .invalidTable name fault := by
  refine ⟨?_, ?_, fun e refused => new_eq_error refused⟩
  · rw [exists_new_iff]
    constructor
    · rintro ⟨power, bounded, portable, known, distinct, fits⟩
      exact ⟨isPowerOfTwo_iff.mp power, bounded, portable,
        CapabilitySet.unknown_isEmpty_iff.mp known, distinct,
        fun p member => primitiveFits_iff.mp (fits p member)⟩
    · rintro ⟨power, bounded, portable, known, distinct, admitted⟩
      exact ⟨isPowerOfTwo_iff.mpr power, bounded, portable,
        CapabilitySet.unknown_isEmpty_iff.mpr known, distinct,
        fun p member => primitiveFits_iff.mpr (admitted p member)⟩
  · intro t ok
    obtain ⟨named, masked, boundary, held⟩ := new_eq_ok_iff.mp ok
    refine ⟨named, masked, boundary, held, fun key p => ?_⟩
    rw [primitive_eq_ok_iff, held]

/-- Two primitives of one shape make a table; the same given twice over make none, since their names
do not differ any more. -/
theorem new_accepts_two_sums :
    let mask := CapabilitySet.ofList [.generic, .sse3]
    let sum := Catalog.sumOfPoly.filtered mask
    let energy : Primitive := { sum with name := "energy" }
    (∃ t, new "host" mask 16 [sum, energy] = .ok t ∧ t.primitives = [sum, energy] ∧
        t.primitive "energy" = .ok energy ∧ Admits mask energy) ∧
      ∃ fault, new "host" mask 16 [sum, energy, sum, energy] = .error (.invalidTable "host" fault) := by
  intro mask sum energy
  constructor
  · obtain ⟨t, ok, -⟩ : ∃ t, new "host" mask 16 [sum, energy] = .ok t ∧
        (t.name == "host") = true := exists_of_okAnd (by decide)
    obtain ⟨accepts, holds, -⟩ := new_accepts_exactly "host" mask 16 [sum, energy]
    obtain ⟨-, -, -, held, finds⟩ := holds t ok
    obtain ⟨-, -, -, -, -, admitted⟩ := accepts.mp ⟨t, ok⟩
    exact ⟨t, ok, held, (finds "energy" energy).mpr ⟨by simp, rfl⟩, admitted energy (by simp)⟩
  · obtain ⟨accepts, -, refuses⟩ := new_accepts_exactly "host" mask 16 [sum, energy, sum, energy]
    cases made : new "host" mask 16 [sum, energy, sum, energy] with
    | ok t =>
      obtain ⟨-, -, -, -, distinct, -⟩ := accepts.mp ⟨t, made⟩
      exact absurd distinct (by decide)
    | error e =>
      obtain ⟨fault, rfl⟩ := refuses e made
      exact ⟨fault, rfl⟩

end Table
end SimdDispatch
