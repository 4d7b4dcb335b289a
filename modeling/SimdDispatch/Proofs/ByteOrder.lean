import Mathlib.Tactic.SplitIfs
import SimdDispatch.Text

/-!
The order of texts, which is that of their UTF-8 bytes: a smaller character has smaller bytes, and
no character's bytes begin another's.
-/
namespace SimdDispatch.Text

def bytes (s : String) : List UInt8 := s.toUTF8.data.toList

theorem bytes_eq (s : String) : bytes s = s.toList.flatMap String.utf8EncodeChar := by
  have encoded : s.toUTF8 = (s.toList.flatMap String.utf8EncodeChar).toByteArray :=
    String.utf8Encode_toList.symm
  rw [bytes, encoded, List.data_toByteArray]

theorem byte_cons_lt_iff {m n : Nat} (left : m < 256) (right : n < 256) (xs ys : List UInt8) :
    UInt8.ofNat m :: xs < UInt8.ofNat n :: ys ↔ m < n ∨ m = n ∧ xs < ys := by
  rw [List.cons_lt_cons_iff, UInt8.lt_iff_toNat_lt, ← UInt8.toNat_inj,
    UInt8.toNat_ofNat_of_lt' left, UInt8.toNat_ofNat_of_lt' right]

theorem sextets_lt {v w : Nat} (less : v < w) :
    v / 262144 < w / 262144 ∨ v / 262144 = w / 262144 ∧
      (v / 4096 % 64 < w / 4096 % 64 ∨ v / 4096 % 64 = w / 4096 % 64 ∧
        (v / 64 % 64 < w / 64 % 64 ∨ v / 64 % 64 = w / 64 % 64 ∧ v % 64 < w % 64)) := by
  have high : v / 262144 ≤ w / 262144 := Nat.div_le_div_right (Nat.le_of_lt less)
  have low : v / 4096 ≤ w / 4096 := Nat.div_le_div_right (Nat.le_of_lt less)
  rcases Nat.lt_or_eq_of_le high with smaller | same
  · exact .inl smaller
  · rcases Nat.lt_or_eq_of_le low with smaller | equal
    · exact .inr ⟨same, .inl (by omega)⟩
    · exact .inr ⟨same, by omega⟩

/-- A smaller character has smaller bytes, whatever follows either. -/
theorem encoded_lt {c d : Char} (less : c < d) (xs ys : List UInt8) :
    String.utf8EncodeChar c ++ xs < String.utf8EncodeChar d ++ ys := by
  have smaller : c.val.toNat < d.val.toNat := less
  have bound : d.val.toNat < 0x110000 := by
    have valid := d.valid
    simp only [UInt32.isValidChar, Nat.isValidChar] at valid
    omega
  unfold String.utf8EncodeChar
  generalize c.val.toNat = v at smaller
  generalize d.val.toNat = w at smaller bound
  dsimp only
  -- The first bytes decide where there are more of the one than of the other.
  split_ifs <;>
    simp (disch := omega) only [List.cons_append, List.nil_append, byte_cons_lt_iff] <;>
    try omega
  have leading : v / 262144 % 8 = v / 262144 := Nat.mod_eq_of_lt (by omega)
  have leading' : w / 262144 % 8 = w / 262144 := Nat.mod_eq_of_lt (by omega)
  have sextets := sextets_lt smaller
  omega

theorem append_lt_append_iff (shared xs ys : List UInt8) :
    shared ++ xs < shared ++ ys ↔ xs < ys := by
  induction shared with
  | nil => rfl
  | cons b rest ih => simpa using ih

/-- Texts are ordered by their characters as they are by their bytes. -/
theorem lt_iff_bytes_lt {s t : String} : s < t ↔ bytes s < bytes t := by
  show s.toList < t.toList ↔ _
  rw [bytes_eq, bytes_eq]
  generalize s.toList = cs
  generalize t.toList = ds
  induction cs generalizing ds with
  | nil =>
    cases ds with
    | nil => simp
    | cons d ds =>
      obtain ⟨b, rest, encoded⟩ := List.exists_cons_of_ne_nil (String.utf8EncodeChar_ne_nil (c := d))
      simp [encoded]
  | cons c cs ih =>
    cases ds with
    | nil => simp
    | cons d ds =>
      rw [List.flatMap_cons, List.flatMap_cons, List.cons_lt_cons_iff]
      rcases Nat.lt_trichotomy c.val.toNat d.val.toNat with less | same | greater
      · exact iff_of_true (.inl less) (encoded_lt less _ _)
      · obtain rfl : c = d := Char.ext (UInt32.toNat_inj.mp same)
        rw [append_lt_append_iff, ← ih]
        simp
      · refine iff_of_false ?_ (List.lt_asymm (encoded_lt greater _ _))
        rintro (less | ⟨rfl, -⟩)
        · exact Nat.lt_asymm less greater
        · exact Nat.lt_irrefl _ greater

end SimdDispatch.Text
