import SimdDispatch.Alignment

/-!
Boundaries through divisibility. On powers of two the order of the numbers is their divisibility,
which is what lets an eligibility test compare two boundaries by size alone.
-/
namespace SimdDispatch

theorem isPowerOfTwo_iff {n : Nat} : isPowerOfTwo n = true ↔ n.isPowerOfTwo := by
  rw [isPowerOfTwo, Bool.and_eq_true, bne_iff_ne, beq_iff_eq]
  exact Nat.ne_zero_and_sub_one_eq_zero_iff_isPowerOfTwo

theorem one_le_of_isPowerOfTwo {n : Nat} (power : isPowerOfTwo n = true) : 1 ≤ n := by
  obtain ⟨k, rfl⟩ := isPowerOfTwo_iff.mp power
  exact Nat.two_pow_pos k

theorem dvd_of_isPowerOfTwo {m n : Nat} (small : isPowerOfTwo m = true)
    (large : isPowerOfTwo n = true) (le : m ≤ n) : m ∣ n := by
  obtain ⟨j, rfl⟩ := isPowerOfTwo_iff.mp small
  obtain ⟨k, rfl⟩ := isPowerOfTwo_iff.mp large
  exact Nat.pow_dvd_pow 2 ((Nat.pow_le_pow_iff_right (by decide)).mp le)

theorem isAligned_iff {address boundary : Nat} (power : isPowerOfTwo boundary = true) :
    isAligned address boundary = true ↔ boundary ∣ address := by
  obtain ⟨k, rfl⟩ := isPowerOfTwo_iff.mp power
  rw [isAligned, beq_iff_eq, Nat.and_two_pow_sub_one_eq_mod, Nat.dvd_iff_mod_eq_zero]

theorem isAligned_one (address : Nat) : isAligned address 1 = true :=
  (isAligned_iff (by decide)).mpr (Nat.one_dvd address)

theorem isAligned_of_le {address small large : Nat} (smallPower : isPowerOfTwo small = true)
    (largePower : isPowerOfTwo large = true) (le : small ≤ large)
    (aligned : isAligned address large = true) : isAligned address small = true := by
  rw [isAligned_iff smallPower]
  exact Nat.dvd_trans (dvd_of_isPowerOfTwo smallPower largePower le)
    ((isAligned_iff largePower).mp aligned)

end SimdDispatch
