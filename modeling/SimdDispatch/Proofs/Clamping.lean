import SimdDispatch.Proofs.GroupSums
import SimdDispatch.Proofs.SingleOrder

/-!
What the layouts feed to the polynomial. Every layout reads its values only through their maximum
with the cutoff, so a run is one of the same loops without any maximum, over values that were raised
before. Layouts of vectors take another maximum in whole groups than behind them, and the two differ
for a cutoff that is not a number.
-/
namespace SimdDispatch

namespace Single

/-- Two numbers with the same value, or two that are none. -/
def Alike (a b : Single) : Prop :=
  (a.value == b.value) = true ∨ a.value.isNaN = true ∧ b.value.isNaN = true

variable {x k : Single}

theorem alike_iff {a b : Single} :
    Alike a b ↔ a.isNaN = b.isNaN ∧ (a.isNaN = false → a.place = b.place) := by
  rw [Alike, value_beq_iff, value_isNaN, value_isNaN]
  cases a.isNaN <;> cases b.isNaN <;> simp

theorem alike_refl (a : Single) : Alike a a := alike_iff.mpr ⟨rfl, fun _ => rfl⟩

/-- The two maxima disagree where only the second operand is missing. -/
theorem alike_maxima_iff :
    Alike (maxSecond x k) (maxNumber x k) ↔ (k.isNaN = true → x.isNaN = true) := by
  rw [alike_iff, maxSecond, maxNumber, isLess, isLess]
  cases first : x.isNaN with
  | true => simp
  | false =>
    cases second : k.isNaN with
    | true => simp [first, second]
    | false =>
      rcases lt_trichotomy x.place k.place with less | same | more
      · simp [less, Int.not_lt.mpr (Int.le_of_lt less)]
      · simp [same, first, second]
      · simp [more, Int.not_lt.mpr (Int.le_of_lt more)]

theorem maxima_of_below (below : x.value.isNaN = true ∨ x.value < k.value) :
    maxSecond x k = k ∧ maxNumber x k = k := by
  rw [value_isNaN, value_lt_iff] at below
  rw [maxSecond, maxNumber]
  obtain missing | less := below
  · simp [isLess, missing]
  · have order : x.isNaN = false ∧ k.isNaN = false ∧ x.place < k.place := by
      simpa [isLess, and_assoc] using less
    have above : k.isLess x = false := by
      simp [isLess, Int.not_lt.mpr (Int.le_of_lt order.2.2)]
    simp [above, less, order.1, order.2.1]

theorem maxima_self (k : Single) : maxSecond k k = k ∧ maxNumber k k = k := by
  constructor
  · rw [maxSecond, ite_self]
  · rw [maxNumber]
    simp

end Single

namespace SumOfPoly

section Raised

variable {α : Type} [Arithmetic α]

/-- How a layout raises the values of its whole groups to the cutoff. -/
def Variant.clamp : Variant → α → α → α
  | .scalar => maxNumber
  | .fourLanes | .eightLanes _ | .eightLanesFused _ => maxSecond

/-- The values that a layout feeds to the polynomial. -/
def Variant.raised (v : Variant) (input : Slice α) (cutoff : α) : Slice α :=
  { input with elements := input.elements.mapIdx fun i x =>
      if i < input.size / 8 * 8 then v.clamp x cutoff else maxNumber x cutoff }

/-- The same arithmetic for values that need not be raised any more. -/
@[reducible] def unclamped (α : Type) [Arithmetic α] : Arithmetic α :=
  { ‹Arithmetic α› with
    maxNumber := fun x _ => x
    maxSecond := fun x _ => x }

variable (v : Variant) (input : Slice α) (cutoff : α)

@[simp] theorem size_raised : (v.raised input cutoff).size = input.size := by
  simp [Variant.raised, Slice.size]

theorem getElem?_raised (i : Nat) :
    (v.raised input cutoff).elements[i]? = input.elements[i]?.map fun x =>
      if i < input.size / 8 * 8 then v.clamp x cutoff else maxNumber x cutoff :=
  Array.getElem?_mapIdx

theorem load_raised {boundary width offset : Nat} (inside : offset + width ≤ input.size / 8 * 8) :
    (v.raised input cutoff).load boundary width offset =
      Vector.map (v.clamp · cutoff) <$> input.load boundary width offset := by
  refine Slice.load_map rfl (size_raised v input cutoff) fun i less => ?_
  have whole : offset + i < input.size / 8 * 8 := by omega
  simp only [getElem?_raised, if_pos whole]

theorem foldGroups_raised {β : Type} (boundary : Nat) {step step' : β → Vector α 8 → β}
    (steps : ∀ acc x, step acc x = step' acc (x.map (v.clamp · cutoff))) (start : β) :
    foldGroups boundary input step start =
      foldGroups boundary (v.raised input cutoff) step' start := by
  rw [foldGroups, foldGroups, size_raised]
  refine foldlM_range_congr _ (fun g less acc => ?_) start
  rw [load_raised v input cutoff (by omega)]
  cases input.load boundary 8 (8 * g) with
  | error fault => rfl
  | ok group => exact congrArg Except.ok (steps acc group)

theorem foldHalves_raised {β : Type} (boundary : Nat) {step step' : β → Vector α 4 → Vector α 4 → β}
    (steps : ∀ acc x y, step acc x y =
      step' acc (x.map (v.clamp · cutoff)) (y.map (v.clamp · cutoff))) (start : β) :
    foldHalves boundary input step start =
      foldHalves boundary (v.raised input cutoff) step' start := by
  rw [foldHalves, foldHalves, size_raised]
  refine foldlM_range_congr _ (fun g less acc => ?_) start
  rw [load_raised v input cutoff (by omega), load_raised v input cutoff (by omega)]
  cases input.load boundary 4 (8 * g) with
  | error fault => rfl
  | ok first =>
    cases input.load boundary 4 (8 * g + 4) with
    | error fault => rfl
    | ok second => exact congrArg Except.ok (steps acc first second)

/-- The groups read their values through the maximum of the layout and in no other way. -/
theorem groupSum_raised (c : Coefficients α) (other : α) :
    groupSum v input c cutoff = @groupSum α (unclamped α) v (v.raised input cutoff) c other := by
  -- The loop without a maximum ignores its cutoff, which is why any `other` will do.
  cases v with
  | scalar =>
    refine congrArg (Functor.map sumPairs) (foldGroups_raised _ input cutoff _ (fun acc x => ?_) _)
    rw [Vector.zipWith_map_right]
    rfl
  | fourLanes =>
    refine congrArg (Functor.map _) (foldHalves_raised _ input cutoff _ (fun acc x y => ?_) _)
    simp only [Vector.zipWith_map_right]
    rfl
  | eightLanes onBoundary =>
    refine congrArg (Functor.map sumHalves) (foldGroups_raised _ input cutoff _ (fun acc x => ?_) _)
    rw [Vector.zipWith_map_right]
    rfl
  | eightLanesFused onBoundary =>
    refine congrArg (Functor.map sumHalves) (foldGroups_raised _ input cutoff _ (fun acc x => ?_) _)
    rw [Vector.zipWith_map_right]
    rfl

theorem extract_raised :
    (v.raised input cutoff).elements.extract (input.size / 8 * 8) input.size =
      (input.elements.extract (input.size / 8 * 8) input.size).map (maxNumber · cutoff) := by
  apply Array.ext
  · simp [Variant.raised]
  · intro i _ _
    simp [Variant.raised]

theorem tailSum_raised (values : Array α) (c : Coefficients α) (other : α) :
    tailSum values c cutoff = @tailSum α (unclamped α) (values.map (maxNumber · cutoff)) c other :=
  (@Array.foldl_map _ _ _ (maxNumber · cutoff) (fun acc y => acc + term c y) values 0).symm

theorem run_eq_unclamped (c : Coefficients α) (other : α) :
    run v input c cutoff = @run α (unclamped α) v (v.raised input cutoff) c other := by
  have groups := groupSum_raised v input cutoff c other
  have rest := tailSum_raised cutoff (input.elements.extract (input.size / 8 * 8) input.size) c other
  rw [← extract_raised v] at rest
  unfold run
  rw [groups, size_raised]
  cases @groupSum α (unclamped α) v (v.raised input cutoff) c other with
  | error fault => rfl
  | ok total => exact congrArg (fun sum => Except.ok (total + sum + ofCount input.size * c.c0)) rest

end Raised

section Agreement

open Single (Alike)

theorem alike_clamp_iff (v : Variant) (x k : Single) :
    Alike (v.clamp x k) (maxNumber x k) ↔
      v = .scalar ∨ k.value.isNaN = false ∨ x.value.isNaN = true := by
  have vectors : Alike (maxSecond x k) (maxNumber x k) ↔
      k.value.isNaN = false ∨ x.value.isNaN = true := by
    rw [Single.value_isNaN, Single.value_isNaN]
    refine Single.alike_maxima_iff.trans ?_
    cases k.isNaN <;> simp
  cases v with
  | scalar => exact iff_of_true (Single.alike_refl _) (.inl rfl)
  | _ => simpa [Variant.clamp] using vectors

/-- A run is the polynomial of the values that its layout raised. For a cutoff that is a number they
are alike in every layout and in every place; for one that is none, a number in a whole group is lost
by the layouts of vectors, and kept by the scalar one and behind the groups. -/
theorem raised_alike_iff (v : Variant) (input : Slice Single) (cutoff : Single) :
    (∀ c, run v input c cutoff = @run Single (unclamped Single) v (v.raised input cutoff) c cutoff) ∧
      ∀ (i : Nat) (x : Single), input.elements[i]? = some x →
        ∃ y, (v.raised input cutoff).elements[i]? = some y ∧
          (Alike y (maxNumber x cutoff) ↔ v = .scalar ∨ input.size / 8 * 8 ≤ i ∨
            cutoff.value.isNaN = false ∨ x.value.isNaN = true) := by
  refine ⟨fun c => run_eq_unclamped v input cutoff c cutoff, fun i x read => ?_⟩
  rw [getElem?_raised, read]
  refine ⟨_, rfl, ?_⟩
  dsimp only
  by_cases whole : i < input.size / 8 * 8
  · rw [if_pos whole, alike_clamp_iff]
    simp [Nat.not_le.mpr whole]
  · rw [if_neg whole]
    exact iff_of_true (Single.alike_refl _) (.inr (.inl (Nat.not_lt.mp whole)))

/-- A cutoff of minus zero, and a zero in a whole group. -/
theorem raised_alike_at_zeros :
    let input : Slice Single := ⟨64, .replicate 9 0⟩
    let cutoff : Single := ⟨0x80000000⟩
    input.elements[3]? = some 0 ∧ ∃ y, (Variant.fourLanes.raised input cutoff).elements[3]? = some y ∧
      Alike y (maxNumber 0 cutoff) := by
  intro input cutoff
  obtain ⟨-, fed⟩ := raised_alike_iff .fourLanes input cutoff
  obtain ⟨y, read, agree⟩ := fed 3 0 rfl
  have number : cutoff.value.isNaN = false := (Single.value_isNaN cutoff).trans (by decide)
  exact ⟨rfl, y, read, agree.mpr (.inr (.inr (.inl number)))⟩

/-- One as a value and no number as the cutoff: a vector loses the value and the scalar maximum keeps
it, and of nine ones the layouts get different sums. -/
theorem maxima_differ_at_missing_cutoff :
    let one : Single := ⟨0x3f800000⟩
    let missing : Single := ⟨0x7fc00000⟩
    let ones : Slice Single := ⟨64, .replicate 9 one⟩
    ¬ Alike (maxSecond one missing) (maxNumber one missing) ∧
      run (.eightLanes false) ones ⟨one, 0, 0, 0, 0⟩ missing = .ok missing ∧
      run .scalar ones ⟨one, 0, 0, 0, 0⟩ missing = .ok ⟨0x41100000⟩ := by
  intro one missing ones
  refine ⟨fun same => ?_, by decide +kernel, by decide +kernel⟩
  exact absurd (Single.alike_maxima_iff.mp same (by decide)) (by decide)

end Agreement

section Replacement

def replaced {α : Type} (input : Slice α) (chosen : Nat → Bool) (value : α) : Slice α :=
  { input with elements := input.elements.mapIdx fun i x => if chosen i then value else x }

theorem clamp_of_below (v : Variant) {x k : Single}
    (below : x.value.isNaN = true ∨ x.value < k.value) : v.clamp x k = k ∧ maxNumber x k = k := by
  obtain ⟨second, number⟩ := Single.maxima_of_below below
  cases v with
  | scalar => exact ⟨number, number⟩
  | _ => exact ⟨second, number⟩

theorem clamp_self (v : Variant) (k : Single) : v.clamp k k = k ∧ maxNumber k k = k := by
  obtain ⟨second, number⟩ := Single.maxima_self k
  cases v with
  | scalar => exact ⟨number, number⟩
  | _ => exact ⟨second, number⟩

variable {input : Slice Single} {chosen : Nat → Bool} {cutoff : Single}

theorem raised_replaced (v : Variant)
    (below : ∀ i x, chosen i = true → input.elements[i]? = some x →
      x.value.isNaN = true ∨ x.value < cutoff.value) :
    v.raised (replaced input chosen cutoff) cutoff = v.raised input cutoff := by
  have size : (replaced input chosen cutoff).size = input.size := Array.size_mapIdx
  have taken (i : Nat) : (replaced input chosen cutoff).elements[i]? =
      input.elements[i]?.map fun x => if chosen i then cutoff else x := Array.getElem?_mapIdx
  apply congrArg (Slice.mk input.address)
  apply Array.ext_getElem?
  intro i
  rw [Array.getElem?_mapIdx, Array.getElem?_mapIdx, size, taken]
  cases read : input.elements[i]? with
  | none => rfl
  | some x =>
    by_cases picked : chosen i = true
    · obtain ⟨group, rest⟩ := clamp_of_below v (below i x picked read)
      obtain ⟨group', rest'⟩ := clamp_self v cutoff
      simp [picked, group, rest, group', rest']
    · simp [picked]

/-- Values that are missing or less than the cutoff may as well be the cutoff, in whole groups and
behind them: no layout tells them apart, for no cutoff. -/
theorem run_ignores_below (v : Variant) (c : Coefficients Single)
    (aligned : input.size ≠ 0 → v.boundary ∣ input.address)
    (below : ∀ i x, chosen i = true → input.elements[i]? = some x →
      x.value.isNaN = true ∨ x.value < cutoff.value) :
    ∃ sum, run v input c cutoff = .ok sum ∧ run v (replaced input chosen cutoff) c cutoff = .ok sum := by
  obtain ⟨sum, summed⟩ := exists_run aligned c cutoff
  refine ⟨sum, summed, ?_⟩
  -- Both runs are the loops without a maximum over the same raised values.
  rw [run_eq_unclamped v _ cutoff c cutoff, raised_replaced v below, ← run_eq_unclamped]
  exact summed

/-- A missing value in the group and minus infinity behind it, for a cutoff of minus zero. -/
theorem run_ignores_below_of_nine :
    let c : Coefficients Single := ⟨⟨0x3f800000⟩, 0, 0, 0, 0⟩
    let input : Slice Single := ⟨64, #[⟨0x7fc00000⟩, 0, 0, 0, 0, 0, 0, 0, ⟨0xff800000⟩]⟩
    let cutoff : Single := ⟨0x80000000⟩
    Variant.fourLanes.boundary ∣ input.address ∧ ∃ sum, run .fourLanes input c cutoff = .ok sum ∧
      run .fourLanes (replaced input (fun i => i == 0 || i == 8) cutoff) c cutoff = .ok sum := by
  intro c input cutoff
  have aligned : Variant.fourLanes.boundary ∣ input.address := by decide
  refine ⟨aligned, run_ignores_below .fourLanes c (fun _ => aligned) fun i x picked read => ?_⟩
  obtain rfl | rfl : i = 0 ∨ i = 8 := by simpa using picked
  · obtain rfl : _ = x := Option.some.inj read
    exact .inl ((Single.value_isNaN _).trans (by decide))
  · obtain rfl : _ = x := Option.some.inj read
    exact .inr (Single.value_lt_iff.mpr (by decide))

end Replacement

end SumOfPoly
end SimdDispatch
