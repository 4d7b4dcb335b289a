import SimdDispatch.Machines
import SimdDispatch.Proofs.Alignment
import SimdDispatch.Proofs.CapabilitySet

/-!
What the checks of primitives and machine tables establish. Each check is shown to pass exactly on
the well-formed, so that a table carries these facts instead of the run of its checks.
-/
namespace SimdDispatch

/-- A check of a list that remembers the names before each entry passes exactly when the names
differ from each other and from those before, and every entry passes by itself. -/
theorem walk_eq_none_iff {α ε : Type} (name : α → String) (Passes : α → Prop)
    (check : List String → α → Option ε) (walk : List String → List α → Option ε)
    (nil : ∀ earlier, walk earlier [] = none)
    (cons : ∀ earlier x rest,
      walk earlier (x :: rest) = (check earlier x).or (walk (name x :: earlier) rest))
    (entry : ∀ earlier x, check earlier x = none ↔ name x ∉ earlier ∧ Passes x)
    (entries : List α) (earlier : List String) :
    walk earlier entries = none ↔
      (∀ x ∈ entries, name x ∉ earlier) ∧ (entries.map name).Nodup ∧ ∀ x ∈ entries, Passes x := by
  induction entries generalizing earlier with
  | nil => simp [nil]
  | cons x rest ih =>
    have later : (∀ y ∈ rest, name y ∉ name x :: earlier) ↔
        name x ∉ rest.map name ∧ ∀ y ∈ rest, name y ∉ earlier := by
      simp only [List.mem_cons, not_or, List.mem_map, not_exists, not_and]
      exact ⟨fun h => ⟨fun y member => (h y member).1, fun y member => (h y member).2⟩,
        fun h y member => ⟨h.1 y member, h.2 y member⟩⟩
    rw [cons, Option.or_eq_none_iff, entry, ih, later]
    simp only [List.forall_mem_cons, List.map_cons, List.nodup_cons]
    constructor
    · rintro ⟨⟨fresh, passes⟩, ⟨unlike, others⟩, distinct, rest⟩
      exact ⟨⟨fresh, others⟩, ⟨unlike, distinct⟩, passes, rest⟩
    · rintro ⟨⟨fresh, others⟩, ⟨unlike, distinct⟩, passes, rest⟩
      exact ⟨⟨fresh, passes⟩, ⟨unlike, others⟩, distinct, rest⟩

namespace Primitive

structure EntryFits (shape : Shape) (i : Implementation) : Prop where
  shaped : i.shape = shape
  known : i.required.unknown.isEmpty = true
  power : isPowerOfTwo i.alignment = true

/-- Differing names, entries that fit, and a portable last one. -/
structure WellFormed (p : Primitive) : Prop where
  distinct : (p.implementations.map (·.name)).Nodup
  entries : ∀ i ∈ p.implementations, EntryFits p.shape i
  fallback : ∃ last, p.implementations.getLast? = some last ∧ last.isGeneric = true

theorem entryFault?_eq_none_iff {shape : Shape} (earlier : List String) (i : Implementation) :
    entryFault? shape earlier i = none ↔ i.name ∉ earlier ∧ EntryFits shape i := by
  unfold entryFault?
  constructor
  · intro passed
    split at passed
    · contradiction
    · rename_i fresh
      split at passed
      · contradiction
      · rename_i shaped
        split at passed
        · contradiction
        · rename_i known
          split at passed
          · contradiction
          · rename_i power
            exact ⟨fresh, by simpa using shaped, by simpa using known, by simpa using power⟩
  · rintro ⟨fresh, shaped, known, power⟩
    simp [fresh, shaped, known, power]

theorem entriesFault?_eq_none_iff {shape : Shape} (entries : List Implementation) :
    entriesFault? shape [] entries = none ↔
      (entries.map (·.name)).Nodup ∧ ∀ i ∈ entries, EntryFits shape i := by
  have walked := walk_eq_none_iff _ (EntryFits shape) (entryFault? shape) (entriesFault? shape)
    (fun _ => rfl) (fun earlier i rest => by simp [entriesFault?]) entryFault?_eq_none_iff entries []
  simpa using walked

theorem fault?_eq_none_iff {p : Primitive} : p.fault? = none ↔ p.WellFormed := by
  unfold fault?
  constructor
  · intro passed
    split at passed
    · contradiction
    · rename_i last isLast
      rw [Option.orElse_eq_orElse, Option.orElse_eq_or, Option.or_eq_none_iff,
        entriesFault?_eq_none_iff] at passed
      obtain ⟨⟨distinct, entries⟩, generic⟩ := passed
      exact ⟨distinct, entries, last, isLast, by simpa using generic⟩
  · rintro ⟨distinct, entries, last, isLast, generic⟩
    simp [isLast, generic, (entriesFault?_eq_none_iff p.implementations).mpr ⟨distinct, entries⟩]

end Primitive

namespace Table

structure PrimitiveFits (mask : CapabilitySet) (p : Primitive) : Prop where
  wellFormed : p.WellFormed
  covered : ∀ i ∈ p.implementations, i.required ⊆ mask

/-- A boundary that buffers can have, a mask of known capabilities with the portable one, and
primitives that fit and whose names differ. -/
structure WellFormed (mask : CapabilitySet) (alignment : Nat) (primitives : List Primitive) :
    Prop where
  power : isPowerOfTwo alignment = true
  bounded : alignment ≤ maxAlignment
  portable : .generic ∈ mask
  known : mask.unknown.isEmpty = true
  distinct : (primitives.map (·.name)).Nodup
  primitives : ∀ p ∈ primitives, PrimitiveFits mask p

theorem primitiveFault?_eq_none_iff {mask : CapabilitySet} (earlier : List String)
    (p : Primitive) :
    primitiveFault? mask earlier p = none ↔ p.name ∉ earlier ∧ PrimitiveFits mask p := by
  simp only [primitiveFault?, Option.orElse_eq_orElse, Option.orElse_eq_or, Option.or_eq_none_iff,
    Option.map_eq_none_iff, Primitive.fault?_eq_none_iff, List.find?_eq_none]
  constructor
  · rintro ⟨wellFormed, covered, fresh⟩
    exact ⟨by simpa using fresh, wellFormed, by simpa using covered⟩
  · rintro ⟨fresh, wellFormed, covered⟩
    exact ⟨wellFormed, by simpa using covered, by simpa using fresh⟩

theorem primitivesFault?_eq_none_iff {mask : CapabilitySet} (primitives : List Primitive) :
    primitivesFault? mask [] primitives = none ↔
      (primitives.map (·.name)).Nodup ∧ ∀ p ∈ primitives, PrimitiveFits mask p := by
  have walked := walk_eq_none_iff _ (PrimitiveFits mask) (primitiveFault? mask) (primitivesFault? mask)
    (fun _ => rfl) (fun earlier p rest => by simp [primitivesFault?]) primitiveFault?_eq_none_iff
    primitives []
  simpa using walked

theorem fault?_eq_none_iff {mask : CapabilitySet} {alignment : Nat} {primitives : List Primitive} :
    fault? mask alignment primitives = none ↔ WellFormed mask alignment primitives := by
  unfold fault?
  constructor
  · intro passed
    split at passed
    · contradiction
    · rename_i boundary
      split at passed
      · contradiction
      · rename_i portable
        split at passed
        · contradiction
        · rename_i known
          obtain ⟨distinct, fits⟩ := (primitivesFault?_eq_none_iff primitives).mp passed
          simp only [Bool.not_eq_true', Bool.not_eq_false, Bool.and_eq_true,
            decide_eq_true_eq] at boundary known
          exact ⟨boundary.1, boundary.2, Decidable.not_not.mp portable, known, distinct, fits⟩
  · rintro ⟨power, bounded, portable, known, distinct, fits⟩
    simp [power, bounded, portable, known, (primitivesFault?_eq_none_iff primitives).mpr ⟨distinct, fits⟩]

theorem wellFormed (t : Table) : WellFormed t.mask t.alignment t.primitives :=
  fault?_eq_none_iff.mp t.accepted

end Table
end SimdDispatch
