import Mathlib.Data.Nat.Bitwise
import Mathlib.Tactic.Ring
import SimdDispatch.Single

/-!
The order of four-byte numbers, which is read off their bits, against the comparison of the values
that the bits stand for. An unpacked number has a rank among the integers, its bits have a place
there, and both are the same; so bits are less, equal or missing exactly as their values are.
-/
namespace SimdDispatch.Single

open Float.Model (Format UnpackedFloat)
open Float.Model.UnpackedFloat

/-- The place of an unpacked number in the order of all of them; both zeros have the same. -/
def rank : UnpackedFloat → Int
  | .infinity s => s.apply (255 * 2 ^ 23)
  | .finite s m e _ => s.apply ((e + 149) * 2 ^ 23 + m)
  | .zero _ | .notANumber => 0

theorem rank_finite (s : Sign) {m : Nat} (e : Int) (h : 0 < m) :
    rank (.finite s m e h) = s.apply ((e + 149) * 2 ^ 23 + m) := rfl

/-- A number as bits unpack to: its mantissa fills all its digits, unless it is one of the least. -/
def Canonical : UnpackedFloat → Prop
  | .finite _ m e _ => -149 ≤ e ∧ e ≤ 104 ∧ m < 2 ^ 24 ∧ (2 ^ 23 ≤ m ∨ e = -149)
  | .infinity _ | .zero _ => True
  | .notANumber => False

section Comparison

theorem compare_sizes {e f : Int} {m n : Nat} (least : -149 ≤ e ∧ -149 ≤ f)
    (bounds : m < 2 ^ 24 ∧ n < 2 ^ 24) (filled : (2 ^ 23 ≤ m ∨ e = -149) ∧ (2 ^ 23 ≤ n ∨ f = -149)) :
    (compare e f).then (compare m n) =
      compare ((e + 149) * 2 ^ 23 + m : Int) ((f + 149) * 2 ^ 23 + n) := by
  rcases lt_trichotomy e f with less | rfl | more
  · rw [Int.compare_eq_lt.mpr less, Int.compare_eq_lt.mpr (by omega)]
    rfl
  · rw [Int.compare_eq_eq.mpr rfl]
    rcases lt_trichotomy m n with less | rfl | more
    · rw [Nat.compare_eq_lt.mpr less, Int.compare_eq_lt.mpr (by omega)]
      rfl
    · rw [Nat.compare_eq_eq.mpr rfl, Int.compare_eq_eq.mpr rfl]
      rfl
    · rw [Nat.compare_eq_gt.mpr more, Int.compare_eq_gt.mpr (by omega)]
      rfl
  · rw [Int.compare_eq_gt.mpr more, Int.compare_eq_gt.mpr (by omega)]
    rfl

theorem compare_neg (i j : Int) : compare (-i) (-j) = (compare i j).swap := by
  rcases lt_trichotomy i j with less | rfl | more
  · rw [Int.compare_eq_lt.mpr less, Int.compare_eq_gt.mpr (by omega)]
    rfl
  · rw [Int.compare_eq_eq.mpr rfl, Int.compare_eq_eq.mpr rfl]
    rfl
  · rw [Int.compare_eq_gt.mpr more, Int.compare_eq_lt.mpr (by omega)]
    rfl

/-- A finite number other than zero lies on the side of its sign, between the infinities. -/
theorem Canonical.between {s : Sign} {m : Nat} {e : Int} {h : 0 < m}
    (canonical : Canonical (.finite s m e h)) :
    -(255 * 2 ^ 23) < rank (.finite s m e h) ∧ rank (.finite s m e h) < 255 * 2 ^ 23 ∧
      (s = .negative → rank (.finite s m e h) < 0) ∧
      (s = .positive → 0 < rank (.finite s m e h)) := by
  obtain ⟨least, most, bound, -⟩ := canonical
  rw [rank_finite]
  cases s <;> simp only [Sign.apply] <;> simp <;> omega

theorem some_lt {i j : Int} (less : i < j) : some Ordering.lt = some (compare i j) := by
  rw [Int.compare_eq_lt.mpr less]

theorem some_gt {i j : Int} (more : j < i) : some Ordering.gt = some (compare i j) := by
  rw [Int.compare_eq_gt.mpr more]

/-- Of one sign two finite numbers are compared by size, and of two signs by these alone. -/
theorem Canonical.compare_finite {s t : Sign} {m n : Nat} {e f : Int} {hm : 0 < m} {hn : 0 < n}
    (first : Canonical (.finite s m e hm)) (second : Canonical (.finite t n f hn)) :
    (UnpackedFloat.finite s m e hm).compare (.finite t n f hn) =
      some (compare (rank (.finite s m e hm)) (rank (.finite t n f hn))) := by
  have sizes := compare_sizes ⟨first.1, second.1⟩ ⟨first.2.2.1, second.2.2.1⟩
    ⟨first.2.2.2, second.2.2.2⟩
  obtain ⟨-, -, negative, positive⟩ := first.between
  obtain ⟨-, -, negative', positive'⟩ := second.between
  cases s <;> cases t
  · exact congrArg some ((congrArg Ordering.swap sizes).trans (compare_neg _ _).symm)
  · exact some_lt ((negative rfl).trans (positive' rfl))
  · exact some_gt ((negative' rfl).trans (positive rfl))
  · exact congrArg some sizes

theorem compare_eq_rank {u v : UnpackedFloat} (first : Canonical u) (second : Canonical v) :
    u.compare v = some (compare (rank u) (rank v)) := by
  cases u with
  | notANumber => cases first
  | infinity s =>
    cases v with
    | notANumber => cases second
    | infinity t => cases s <;> cases t <;> rfl
    | zero t => cases s <;> rfl
    | finite t n f hn =>
      obtain ⟨above, below, -⟩ := second.between
      cases s with
      | negative => exact some_lt above
      | positive => exact some_gt below
  | zero s =>
    cases v with
    | notANumber => cases second
    | infinity t => cases t <;> rfl
    | zero t => rfl
    | finite t n f hn =>
      obtain ⟨-, -, negative, positive⟩ := second.between
      cases t with
      | negative => exact some_gt (negative rfl)
      | positive => exact some_lt (positive rfl)
  | finite s m e hm =>
    obtain ⟨above, below, negative, positive⟩ := first.between
    cases v with
    | notANumber => cases second
    | infinity t =>
      cases t with
      | negative => exact some_gt above
      | positive => exact some_lt below
    | zero t =>
      cases s with
      | negative => exact some_lt (negative rfl)
      | positive => exact some_gt (positive rfl)
    | finite t n f hn => exact first.compare_finite second

end Comparison

/-- The number that fields of bits stand for. -/
def ofFields (s : Sign) (exponent mantissa : Nat) : UnpackedFloat :=
  if exponent = 255 then
    if mantissa = 0 then .infinity s else .notANumber
  else if exponent = 0 then
    if h : mantissa = 0 then .zero s else .finite s mantissa (-149) (Nat.pos_of_ne_zero h)
  else .finite s (2 ^ 23 + mantissa) (exponent - 150) (by omega)

/-- Fields of a number stand for an infinity, a zero, a number with an exponent of zero or another. -/
theorem ofFields_cases (s : Sign) {exponent mantissa : Nat} (number : exponent = 255 → mantissa = 0) :
    (exponent = 255 ∧ mantissa = 0 ∧ ofFields s exponent mantissa = .infinity s) ∨
      (exponent = 0 ∧ mantissa = 0 ∧ ofFields s exponent mantissa = .zero s) ∨
      (exponent = 0 ∧ ∃ h, ofFields s exponent mantissa = .finite s mantissa (-149) h) ∨
      (0 < exponent ∧ exponent ≠ 255 ∧
        ∃ h, ofFields s exponent mantissa = .finite s (2 ^ 23 + mantissa) (exponent - 150) h) := by
  rw [ofFields]
  by_cases full : exponent = 255
  · exact .inl ⟨full, number full, by rw [if_pos full, if_pos (number full)]⟩
  · by_cases zero : exponent = 0
    · by_cases empty : mantissa = 0
      · exact .inr (.inl ⟨zero, empty, by rw [if_neg full, if_pos zero, dif_pos empty]⟩)
      · refine .inr (.inr (.inl ⟨zero, Nat.pos_of_ne_zero empty, ?_⟩))
        rw [if_neg full, if_pos zero, dif_neg empty]
    · refine .inr (.inr (.inr ⟨Nat.pos_of_ne_zero zero, full, by omega, ?_⟩))
      rw [if_neg full, if_neg zero]

theorem canonical_ofFields (s : Sign) {exponent mantissa : Nat} (few : exponent < 2 ^ 8)
    (low : mantissa < 2 ^ 23) (number : exponent = 255 → mantissa = 0) :
    Canonical (ofFields s exponent mantissa) ∧
      rank (ofFields s exponent mantissa) = s.apply (exponent * 2 ^ 23 + mantissa) := by
  rcases ofFields_cases s number with ⟨full, empty, read⟩ | ⟨zero, empty, read⟩ |
    ⟨zero, _, read⟩ | ⟨occupied, finite, _, read⟩
  · rw [read, full, empty]
    exact ⟨trivial, rfl⟩
  · rw [read, zero, empty]
    exact ⟨trivial, by cases s <;> rfl⟩
  · rw [read, rank_finite, zero]
    exact ⟨⟨by omega, by omega, by omega, .inr rfl⟩, rfl⟩
  · rw [read, rank_finite]
    refine ⟨⟨by omega, by omega, by omega, .inl (by omega)⟩, congrArg s.apply ?_⟩
    push_cast
    ring

section Fields

theorem toNat_append_eq_add {v w : Nat} (x : BitVec v) (y : BitVec w) :
    (x ++ y).toNat = x.toNat * 2 ^ w + y.toNat := by
  rw [BitVec.toNat_append, ← Nat.shiftLeft_add_eq_or_of_lt y.isLt, Nat.shiftLeft_eq]

section Unpacking

variable (b : BitVec Format.binary32.numBits)

theorem toNat_unpackMantissa : (unpackMantissa b).toNat = b.toNat % 2 ^ 23 :=
  BitVec.extractLsb_toNat 22 0 b

theorem toNat_unpackExponent : (unpackExponent b).toNat = b.toNat / 2 ^ 23 % 2 ^ 8 := by
  rw [← Nat.shiftRight_eq_div_pow]
  exact BitVec.extractLsb_toNat 30 23 b

theorem toNat_unpackSign : (unpackSign b).toNat = b.toNat / 2 ^ 31 % 2 := by
  rw [← Nat.shiftRight_eq_div_pow]
  exact BitVec.extractLsb_toNat 31 31 b

theorem unpackSign_eq_zero_iff : unpackSign b = 0#1 ↔ b.toNat < 2 ^ 31 := by
  have bound : b.toNat < 2 ^ 32 := b.isLt
  rw [← BitVec.toNat_inj, toNat_unpackSign, BitVec.toNat_ofNat]
  omega

theorem finite_congr {s : Sign} {m n : Nat} {e f : Int} {hm : 0 < m} {hn : 0 < n} (mantissas : m = n)
    (exponents : e = f) : UnpackedFloat.finite s m e hm = .finite s n f hn := by
  subst mantissas exponents
  rfl

theorem unpack_eq_ofFields :
    unpack .binary32 b = ofFields (Sign.ofBitVec (unpackSign b)) (unpackExponent b).toNat
      (unpackMantissa b).toNat := by
  have full : unpackExponent b = -1#_ ↔ (unpackExponent b).toNat = 255 := by
    rw [← BitVec.toNat_inj]
    rfl
  have none : unpackExponent b = 0#_ ↔ (unpackExponent b).toNat = 0 := by
    rw [← BitVec.toNat_inj]
    rfl
  have empty : unpackMantissa b = 0#_ ↔ (unpackMantissa b).toNat = 0 := by
    rw [← BitVec.toNat_inj]
    rfl
  have leading : (1#1 ++ unpackMantissa b).toNat = 2 ^ 23 + (unpackMantissa b).toNat := by
    rw [toNat_append_eq_add, BitVec.toNat_ofNat, Nat.one_mul]
  refine ite_congr (propext full)
    (fun _ => ite_congr (propext empty) (fun _ => rfl) fun _ => rfl) fun _ => ?_
  refine ite_congr (propext none) (fun zero => ?_) fun _ => finite_congr leading rfl
  refine dite_congr (propext empty) (fun _ => rfl) fun _ => finite_congr rfl ?_
  rw [zero]
  rfl

end Unpacking

variable {s : Sign} {exponent mantissa : Nat}

theorem ofBitVec_unpackSign_packComponents (e : BitVec 8) (m : BitVec 23) :
    Sign.ofBitVec (unpackSign (packComponents .binary32 s e m)) = s := by
  have bounds : e.toNat < 2 ^ 8 ∧ m.toNat < 2 ^ 23 := ⟨e.isLt, m.isLt⟩
  have whole : (packComponents .binary32 s e m).toNat =
      s.toBitVec.toNat * 2 ^ 31 + (e.toNat * 2 ^ 23 + m.toNat) := by
    rw [packComponents, toNat_append_eq_add, toNat_append_eq_add]
    omega
  have unset : unpackSign (packComponents .binary32 s e m) = 0#1 ↔ s = .positive := by
    rw [unpackSign_eq_zero_iff, whole]
    cases s <;> simp [Sign.toBitVec]
    omega
  cases s with
  | positive => exact if_pos (unset.mpr rfl)
  | negative => exact if_neg (mt unset.mp nofun)

theorem unpack_packComponents (e : BitVec 8) (m : BitVec 23) :
    unpack .binary32 (packComponents .binary32 s e m) = ofFields s e.toNat m.toNat := by
  rw [unpack_eq_ofFields, ofBitVec_unpackSign_packComponents, unpackExponent_packComponents,
    unpackMantissa_packComponents]

theorem pack_finite (e : Int) (positive : 0 < mantissa) :
    pack .binary32 (.finite s mantissa e positive) =
      if 2 ^ 8 ≤ (e + 127 + 23).toNat + 1 then packedInfinity .binary32 s
      else if mantissa.log2 + 1 = 24 then
        packComponents .binary32 s (.ofNat 8 (e + 127 + 23).toNat) (.ofNat 23 mantissa)
      else packComponents .binary32 s 0 (.ofNat 23 mantissa) := rfl

theorem pack_least {positive : 0 < mantissa} (low : mantissa < 2 ^ 23) :
    pack .binary32 (.finite s mantissa (-149) positive) =
      packComponents .binary32 s 0 (.ofNat 23 mantissa) := by
  have short : mantissa.log2 < 23 := (Nat.log2_lt positive.ne').mpr low
  rw [pack_finite, if_neg (by decide), if_neg (by omega)]

theorem pack_filled {positive : 0 < 2 ^ 23 + mantissa} (few : exponent < 255)
    (low : mantissa < 2 ^ 23) :
    pack .binary32 (.finite s (2 ^ 23 + mantissa) (exponent - 150) positive) =
      packComponents .binary32 s (.ofNat 8 exponent) (.ofNat 23 mantissa) := by
  have long : (2 ^ 23 + mantissa).log2 = 23 := (Nat.log2_eq_iff positive.ne').mpr (by omega)
  have biased : ((exponent : Int) - 150 + 127 + 23).toNat = exponent := by omega
  have rest : BitVec.ofNat 23 (2 ^ 23 + mantissa) = .ofNat 23 mantissa := by
    apply BitVec.eq_of_toNat_eq
    rw [BitVec.toNat_ofNat, BitVec.toNat_ofNat, Nat.add_mod_left]
  rw [pack_finite, biased, if_neg (by omega), if_pos (by omega), rest]

/-- What fields stand for is packed into these fields, unless it is no number. -/
theorem pack_ofFields (few : exponent < 2 ^ 8) (low : mantissa < 2 ^ 23)
    (number : exponent = 255 → mantissa = 0) :
    pack .binary32 (ofFields s exponent mantissa) =
      packComponents .binary32 s (.ofNat 8 exponent) (.ofNat 23 mantissa) := by
  rcases ofFields_cases s number with ⟨full, empty, read⟩ | ⟨zero, empty, read⟩ |
    ⟨zero, _, read⟩ | ⟨-, finite, _, read⟩
  · rw [read, full, empty]
    rfl
  · rw [read, zero, empty]
    rfl
  · rw [read, zero, pack_least low]
    rfl
  · rw [read, pack_filled (by omega) low]

/-- Packing keeps what a number is; bits that are none lose their payload. -/
theorem unpack_pack_unpack (b : BitVec Format.binary32.numBits) :
    unpack .binary32 (pack .binary32 (unpack .binary32 b)) = unpack .binary32 b := by
  rw [unpack_eq_ofFields b]
  by_cases number : (unpackExponent b).toNat = 255 → (unpackMantissa b).toNat = 0
  · rw [pack_ofFields (unpackExponent b).isLt (unpackMantissa b).isLt number,
      unpack_packComponents, BitVec.ofNat_toNat, BitVec.ofNat_toNat, BitVec.setWidth_eq,
      BitVec.setWidth_eq]
  · rw [Classical.not_imp] at number
    rw [ofFields, if_pos number.1, if_neg number.2]
    exact unpack_packComponents (-1) (1 <<< 22)

end Fields

section Bits

variable {x : Single}

theorem magnitude_eq (x : Single) : x.magnitude = x.bits.toNat % 2 ^ 31 := by
  rw [magnitude, UInt32.toNat_and]
  exact Nat.and_two_pow_sub_one_eq_mod x.bits.toNat 31

theorem isNaN_iff (x : Single) : x.isNaN = true ↔ 255 * 2 ^ 23 < x.magnitude := by
  rw [isNaN, decide_eq_true_eq]
  rfl

theorem isNegative_iff (x : Single) : x.isNegative = true ↔ 2 ^ 31 ≤ x.bits.toNat := by
  have bound := x.bits.toNat_lt
  have word : (x.bits &&& 0x80000000).toNat = (x.bits.toNat.testBit 31).toNat * 2 ^ 31 := by
    rw [UInt32.toNat_and]
    exact Nat.and_two_pow x.bits.toNat 31
  rw [isNegative, bne_iff_ne, ne_eq, ← UInt32.toNat_inj, word, Nat.testBit_eq_decide_div_mod_eq]
  by_cases set : x.bits.toNat / 2 ^ 31 % 2 = 1
  · rw [decide_eq_true set]
    simp
    omega
  · rw [decide_eq_false set]
    simp
    omega

/-- What the bits stand for. -/
def reading (x : Single) : UnpackedFloat := unpack .binary32 x.bits.toBitVec

theorem reading_eq_ofFields (x : Single) :
    x.reading = ofFields (if x.isNegative then .negative else .positive) (x.magnitude / 2 ^ 23)
      (x.magnitude % 2 ^ 23) := by
  have positive : @unpackSign .binary32 x.bits.toBitVec = 0#1 ↔ ¬ x.isNegative = true := by
    rw [unpackSign_eq_zero_iff, isNegative_iff, Nat.not_le]
    rfl
  have sign : Sign.ofBitVec (@unpackSign .binary32 x.bits.toBitVec) =
      if x.isNegative then .negative else .positive := by
    by_cases negative : x.isNegative = true <;> simp [Sign.ofBitVec, positive, negative]
  have exponent : x.bits.toNat / 2 ^ 23 % 2 ^ 8 = x.bits.toNat % 2 ^ 31 / 2 ^ 23 := by omega
  have mantissa : x.bits.toNat % 2 ^ 23 = x.bits.toNat % 2 ^ 31 % 2 ^ 23 := by omega
  rw [reading, unpack_eq_ofFields, sign, toNat_unpackExponent, toNat_unpackMantissa, magnitude_eq]
  exact congrArg₂ (ofFields _) exponent mantissa

theorem reading_of_isNaN (missing : x.isNaN = true) : x.reading = .notANumber := by
  have above := (isNaN_iff x).mp missing
  have bound : x.magnitude < 2 ^ 31 := by
    rw [magnitude_eq]
    omega
  rw [reading_eq_ofFields, ofFields, if_pos (by omega), if_neg (by omega)]

theorem canonical_reading (number : x.isNaN = false) :
    Canonical x.reading ∧ rank x.reading = x.place := by
  have within : x.magnitude ≤ 255 * 2 ^ 23 := by
    rw [← Nat.not_lt, ← isNaN_iff, number]
    decide
  have fields : (x.magnitude / 2 ^ 23 : Nat) * 2 ^ 23 + (x.magnitude % 2 ^ 23 : Nat) =
      (x.magnitude : Int) := by omega
  obtain ⟨canonical, placed⟩ := @canonical_ofFields (if x.isNegative then .negative else .positive)
    (x.magnitude / 2 ^ 23) (x.magnitude % 2 ^ 23) (by omega) (by omega) (by omega)
  rw [reading_eq_ofFields]
  refine ⟨canonical, placed.trans ?_⟩
  rw [fields, place]
  split <;> rfl

end Bits

section Values

variable {x y : Single}

theorem unpack_value (x : Single) : x.value.toModel.unpack = x.reading :=
  unpack_pack_unpack x.bits.toBitVec

theorem value_isNaN (x : Single) : x.value.isNaN = x.isNaN := by
  change x.value.toModel.unpack.isNaN = x.isNaN
  rw [unpack_value]
  cases missing : x.isNaN with
  | true =>
    rw [reading_of_isNaN missing]
    rfl
  | false =>
    have canonical := (canonical_reading missing).1
    cases read : x.reading with
    | notANumber =>
      rw [read] at canonical
      cases canonical
    | _ => rfl

theorem compare_value (x y : Single) :
    x.value.toModel.unpack.compare y.value.toModel.unpack =
      if x.isNaN || y.isNaN then none else some (compare x.place y.place) := by
  rw [unpack_value, unpack_value]
  cases first : x.isNaN with
  | true =>
    rw [reading_of_isNaN first]
    rfl
  | false =>
    obtain ⟨canonical, placed⟩ := canonical_reading first
    cases second : y.isNaN with
    | true =>
      rw [reading_of_isNaN second]
      cases x.reading <;> rfl
    | false =>
      obtain ⟨canonical', placed'⟩ := canonical_reading second
      rw [compare_eq_rank canonical canonical', placed, placed']
      rfl

theorem value_lt_iff : x.value < y.value ↔ x.isLess y = true := by
  change decide ((x.value.toModel.unpack.compare y.value.toModel.unpack == some .lt) = true) = true ↔ _
  rw [decide_eq_true_eq, compare_value, isLess]
  cases x.isNaN <;> cases y.isNaN <;> simp [Int.compare_eq_lt]

theorem value_beq_iff :
    (x.value == y.value) = true ↔ x.isNaN = false ∧ y.isNaN = false ∧ x.place = y.place := by
  change (x.value.toModel.unpack.compare y.value.toModel.unpack == some .eq) = true ↔ _
  rw [compare_value]
  cases x.isNaN <;> cases y.isNaN <;> simp

end Values
end SimdDispatch.Single
