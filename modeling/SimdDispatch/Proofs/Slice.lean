import SimdDispatch.Slice

/-!
Checked accesses that succeed, what they read and what they leave alone, and loops of them. A loop
over groups succeeds when every step does wherever the steps before it lead.
-/
namespace SimdDispatch

/-- What one step keeps from each index to the next holds behind the loop, which does not fail. -/
theorem foldlM_range_ok {ε β : Type} {step : β → Nat → Except ε β} (invariant : Nat → β → Prop)
    {start : β} (initial : invariant 0 start) (n : Nat)
    (keeps : ∀ g < n, ∀ b, invariant g b → ∃ b', step b g = .ok b' ∧ invariant (g + 1) b') :
    ∃ b, (List.range n).foldlM step start = .ok b ∧ invariant n b := by
  induction n with
  | zero => exact ⟨start, rfl, initial⟩
  | succ n ih =>
    obtain ⟨b, looped, holds⟩ := ih fun g less => keeps g (Nat.lt_succ_of_lt less)
    obtain ⟨b', stepped, next⟩ := keeps n (Nat.lt_succ_self n) b holds
    refine ⟨b', ?_, next⟩
    rw [List.range_succ, List.foldlM_append, looped]
    simp only [bind, Except.bind, List.foldlM_cons, List.foldlM_nil, stepped, pure, Except.pure]

/-- A loop whose steps do not fail is a fold. -/
theorem foldlM_range_eq_foldl {ε β : Type} {step : β → Nat → Except ε β} {next : β → Nat → β}
    (n : Nat) (steps : ∀ g < n, ∀ b, step b g = .ok (next b g)) (start : β) :
    (List.range n).foldlM step start = .ok ((List.range n).foldl next start) := by
  have initial : start = (List.range 0).foldl next start := rfl
  obtain ⟨b, looped, same⟩ := foldlM_range_ok (fun k b => b = (List.range k).foldl next start)
    initial n fun g less b same => ⟨next b g, steps g less b, by
      rw [same, List.range_succ, List.foldl_append, List.foldl_cons, List.foldl_nil]⟩
  rw [looped, same]

/-- Loops whose steps do the same do the same. -/
theorem foldlM_range_congr {ε β : Type} {step step' : β → Nat → Except ε β} (n : Nat)
    (same : ∀ g < n, ∀ b, step b g = step' b g) (start : β) :
    (List.range n).foldlM step start = (List.range n).foldlM step' start := by
  induction n with
  | zero => rfl
  | succ n ih =>
    rw [List.range_succ, List.foldlM_append, List.foldlM_append,
      ih fun g less => same g (Nat.lt_succ_of_lt less)]
    simp only [List.foldlM_cons, List.foldlM_nil, same n (Nat.lt_succ_self n)]

namespace Slice

variable {α : Type}

theorem overwrite_cons (s : Slice α) (offset : Nat) (x : α) (rest : List α) :
    s.overwrite offset (x :: rest) =
      Slice.overwrite { s with elements := s.elements.setIfInBounds offset x } (offset + 1) rest := rfl

@[simp] theorem size_overwrite (s : Slice α) (offset : Nat) (xs : List α) :
    (s.overwrite offset xs).size = s.size := by
  induction xs generalizing offset s with
  | nil => rfl
  | cons x rest ih =>
    rw [overwrite_cons, ih]
    exact Array.size_setIfInBounds

/-- Elements put one after the other from `offset` on change no place before or behind theirs. -/
theorem getElem?_overwrite (s : Slice α) (offset : Nat) (xs : List α) (i : Nat) :
    (s.overwrite offset xs).elements[i]? =
      if offset ≤ i ∧ i < offset + xs.length ∧ i < s.size then xs[i - offset]?
      else s.elements[i]? := by
  induction xs generalizing offset s with
  | nil =>
    rw [if_neg (by simp; omega)]
    rfl
  | cons x rest ih =>
    have bound : s.elements.size = s.size := rfl
    have kept : Slice.size { s with elements := s.elements.setIfInBounds offset x } = s.size :=
      Array.size_setIfInBounds
    rw [overwrite_cons, ih, List.length_cons, kept, Array.getElem?_setIfInBounds, bound]
    rcases Nat.lt_trichotomy i offset with before | rfl | behind
    · rw [if_neg (by omega), if_neg (by omega), if_neg (by omega)]
    · by_cases inside : i < s.size
      · rw [if_neg (by omega), if_pos rfl, if_pos inside, if_pos (by omega), Nat.sub_self]
        rfl
      · rw [if_neg (by omega), if_pos rfl, if_neg inside, if_neg (by omega)]
        exact (Array.getElem?_eq_none (Nat.le_of_not_lt inside)).symm
    · obtain ⟨k, rfl⟩ : ∃ k, i = offset + 1 + k := ⟨i - (offset + 1), by omega⟩
      rw [if_neg (show ¬ offset = offset + 1 + k by omega),
        show offset + 1 + k - offset = k + 1 by omega,
        show offset + 1 + k - (offset + 1) = k by omega, List.getElem?_cons_succ]
      exact ite_congr (propext (by omega)) (fun _ => rfl) fun _ => rfl

section Access

variable {s : Slice α} {boundary offset : Nat}

theorem exists_load (width : Nat) (aligned : (s.address + laneBytes * offset) % boundary = 0)
    (inside : offset + width ≤ s.size) :
    ∃ v : Vector α width, s.load boundary width offset = .ok v ∧
      ∀ (i : Nat) (h : i < width), s.elements[offset + i]? = some v[i] := by
  refine ⟨_, by rw [load, if_neg (not_not_intro aligned)]; exact dif_pos inside, fun i h => ?_⟩
  rw [Vector.getElem_ofFn]
  exact Array.getElem?_eq_getElem _

/-- Two loads side by side read one run of lanes. -/
theorem exists_load_pair (width : Nat) (first : (s.address + laneBytes * offset) % boundary = 0)
    (second : (s.address + laneBytes * (offset + width)) % boundary = 0)
    (inside : offset + width + width ≤ s.size) :
    ∃ v w : Vector α width, s.load boundary width offset = .ok v ∧
      s.load boundary width (offset + width) = .ok w ∧
      ∀ (i : Nat) (h : i < width + width), s.elements[offset + i]? = some (v ++ w)[i] := by
  obtain ⟨v, loaded, lower⟩ := exists_load width first (by omega)
  obtain ⟨w, loaded', upper⟩ := exists_load width second (by omega)
  refine ⟨v, w, loaded, loaded', fun i h => ?_⟩
  rw [Vector.getElem_append]
  split
  · rename_i less
    exact lower i less
  · obtain ⟨k, rfl⟩ : ∃ k, i = width + k := ⟨i - width, by omega⟩
    simpa [Nat.add_assoc] using upper k (by omega)

/-- A load of lanes that a function was applied to, one by one. -/
theorem load_map {t : Slice α} {f : α → α} {width : Nat} (address : t.address = s.address)
    (size : t.size = s.size)
    (read : ∀ i < width, t.elements[offset + i]? = s.elements[offset + i]?.map f) :
    t.load boundary width offset = Vector.map f <$> s.load boundary width offset := by
  have size' : t.elements.size = s.elements.size := size
  unfold load
  rw [address]
  split
  · rfl
  · by_cases inside : offset + width ≤ s.elements.size
    · rw [dif_pos inside, dif_pos (size' ▸ inside)]
      apply congrArg Except.ok
      apply Vector.ext
      intro i less
      have there : offset + i < s.elements.size := by omega
      have same := read i less
      rw [Array.getElem?_eq_getElem there, Array.getElem?_eq_getElem (size' ▸ there)] at same
      simpa using same
    · rw [dif_neg inside, dif_neg (size' ▸ inside)]
      rfl

theorem store_eq_ok {width : Nat} {v : Vector α width}
    (aligned : (s.address + laneBytes * offset) % boundary = 0)
    (inside : offset + width ≤ s.size) : s.store boundary offset v = .ok (s.write offset v) := by
  rw [store, if_neg (not_not_intro aligned), if_pos inside]

end Access

/-- A boundary that the start is on and that divides the distance in bytes is kept. -/
theorem mod_eq_zero {address boundary offset : Nat} (start : boundary ∣ address)
    (distance : boundary ∣ laneBytes * offset) : (address + laneBytes * offset) % boundary = 0 :=
  Nat.mod_eq_zero_of_dvd (Nat.dvd_add start distance)

/-- Whole vectors keep to a boundary that one of them keeps to. -/
theorem dvd_of_whole {boundary width : Nat} (vectors : boundary ∣ laneBytes * width) (n : Nat) :
    boundary ∣ laneBytes * (width * n) := by
  rw [← Nat.mul_assoc]
  exact Nat.dvd_mul_right_of_dvd vectors n

/-- The parts of complex samples lie side by side, the real part first. -/
theorem getElem?_lanes (s : Slice (Complex α)) (i : Nat) :
    s.lanes.elements[2 * i]? = s.elements[i]?.map Complex.re ∧
      s.lanes.elements[2 * i + 1]? = s.elements[i]?.map Complex.im := by
  obtain ⟨address, ⟨samples⟩⟩ := s
  simp only [lanes, List.flatMap_toArray, List.getElem?_toArray]
  induction samples generalizing i with
  | nil => simp
  | cons z rest ih =>
    cases i with
    | zero => simp
    | succ i => simpa [Nat.mul_succ] using ih i

theorem size_lanes (s : Slice (Complex α)) : s.lanes.size = 2 * s.size := by
  obtain ⟨address, ⟨samples⟩⟩ := s
  simp only [size, lanes, List.flatMap_toArray, List.size_toArray]
  induction samples with
  | nil => rfl
  | cons z rest ih =>
    simp only [List.flatMap_cons, List.length_append, List.length_cons, List.length_nil, ih]
    omega

end Slice
end SimdDispatch
