import Mathlib.Algebra.BigOperators.Fin
import Mathlib.Algebra.Order.Ring.Rat
import Mathlib.Tactic.Ring
import SimdDispatch.Proofs.GroupSums

/-!
The sums over exact numbers, where only the order of the additions tells the layouts apart. A lane
collects the values of its place in every group, and all lanes and the rest make up the whole sum.
-/
namespace SimdDispatch.SumOfPoly

/-- Exact numbers: nothing is rounded, none is missing, and a fused product is a product. -/
instance : Arithmetic ℚ where
  fma a b c := a * b + c
  maxNumber := max
  maxSecond := max
  ofCount n := n

def polynomial (c : Coefficients ℚ) (x : ℚ) : ℚ :=
  c.c1 * x + c.c2 * x ^ 2 + c.c3 * x ^ 3 + c.c4 * x ^ 4

section Terms

variable (c : Coefficients ℚ) (x : ℚ)

theorem term_eq_polynomial : term c x = polynomial c x := by
  show c.c1 * x + c.c2 * (x * x) + c.c3 * (x * (x * x)) + c.c4 * (x * x * (x * x)) = _
  rw [polynomial]
  ring

theorem low_add_high_eq_polynomial : low c x + high c x = polynomial c x := by
  show x * c.c1 + x * x * c.c2 + (x * (x * x) * c.c3 + x * x * (x * x) * c.c4) = _
  rw [polynomial]
  ring

end Terms

section Lanes

theorem sumPairs_eq_sum (v : Vector ℚ 8) : sumPairs v = ∑ j, v.get j := by
  rw [Fin.sum_univ_eight]
  show v.get 0 + v.get 1 + (v.get 2 + v.get 3) + (v.get 4 + v.get 5) + (v.get 6 + v.get 7) = _
  ring

theorem sumHalves_eq_sum (v : Vector ℚ 8) : sumHalves v = ∑ j, v.get j := by
  rw [Fin.sum_univ_eight, sumHalves_eq]
  show v.get 0 + v.get 4 + (v.get 1 + v.get 5) + (v.get 2 + v.get 6 + (v.get 3 + v.get 7)) = _
  ring

theorem sumHorizontally_eq_sum (v w : Vector ℚ 4) :
    sumHorizontally v w = ∑ j, v.get j + ∑ j, w.get j := by
  rw [Fin.sum_univ_four, Fin.sum_univ_four]
  show v.get 0 + v.get 1 + (v.get 2 + v.get 3) + (w.get 0 + w.get 1 + (w.get 2 + w.get 3)) = _
  ring

/-- The invariant of a loop over groups: lane `j` holds the values of place `j` in those passed. -/
theorem get_foldl_window {width : Nat} {add : ℚ → ℚ → ℚ} {value : ℚ → ℚ}
    (adds : ∀ a y, add a y = a + value y) (input : Slice ℚ) (offset : ℕ → ℕ) (n : ℕ)
    (j : Fin width) :
    ((List.range n).foldl (fun acc g => acc.zipWith add (window input width (offset g)))
        (Vector.replicate width 0)).get j =
      ∑ g ∈ Finset.range n, value (lane input (offset g + j)) := by
  induction n with
  | zero => exact Vector.getElem_replicate j.isLt
  | succ n ih =>
    rw [List.range_succ, List.foldl_append, List.foldl_cons, List.foldl_nil,
      Finset.sum_range_succ, ← ih, get_zipWith, adds, get_window]

/-- All lanes of all groups are all values that the groups cover. -/
theorem sum_lanes (value : ℕ → ℚ) (n : ℕ) :
    ∑ j : Fin 8, ∑ g ∈ Finset.range n, value (8 * g + j) = ∑ i ∈ Finset.range (8 * n), value i := by
  rw [Finset.sum_comm]
  induction n with
  | zero => rfl
  | succ n ih =>
    rw [Finset.sum_range_succ, ih, Nat.mul_succ, Finset.sum_range_add,
      Finset.sum_range fun k => value (8 * n + k)]

theorem sum_lanes_halves (value : ℕ → ℚ) (n : ℕ) :
    ∑ j : Fin 4, ∑ g ∈ Finset.range n, value (8 * g + j) +
      ∑ j : Fin 4, ∑ g ∈ Finset.range n, value (8 * g + 4 + j) =
        ∑ i ∈ Finset.range (8 * n), value i := by
  rw [← sum_lanes, Fin.sum_univ_add (a := 4) (b := 4)]
  simp only [Fin.val_castAdd, Fin.val_natAdd, Nat.add_assoc]

end Lanes

section Sums

variable (input : Slice ℚ) (c : Coefficients ℚ) (cutoff : ℚ)

section Groups

variable {add : ℚ → ℚ → ℚ} {value : ℚ → ℚ} (adds : ∀ a y, add a y = a + value y) (n : ℕ)
include adds

theorem sum_foldl_window :
    ∑ j, ((List.range n).foldl (fun acc g => acc.zipWith add (window input 8 (8 * g)))
        (Vector.replicate 8 0)).get j = ∑ i ∈ Finset.range (8 * n), value (lane input i) := by
  rw [← sum_lanes]
  exact Finset.sum_congr rfl fun j _ => get_foldl_window adds input _ n j

theorem sum_foldl_windows :
    ∃ v w : Vector ℚ 4,
      (List.range n).foldl (fun acc g =>
          (acc.1.zipWith add (window input 4 (8 * g)),
            acc.2.zipWith add (window input 4 (8 * g + 4))))
        (Vector.replicate 4 0, Vector.replicate 4 0) = (v, w) ∧
      ∑ j, v.get j + ∑ j, w.get j = ∑ i ∈ Finset.range (8 * n), value (lane input i) := by
  refine ⟨_, _, List.foldl_hom₂ _ Prod.mk
    (fun v g => v.zipWith add (window input 4 (8 * g)))
    (fun w g => w.zipWith add (window input 4 (8 * g + 4))) _ _ _ fun _ _ _ => rfl, ?_⟩
  rw [← sum_lanes_halves]
  congr 1
  · exact Finset.sum_congr rfl fun j _ => get_foldl_window adds input _ n j
  · exact Finset.sum_congr rfl fun j _ => get_foldl_window adds input _ n j

end Groups

/-- The polynomial of a value that is raised to the cutoff. -/
def clamped (x : ℚ) : ℚ := polynomial c (max x cutoff)

theorem high_add_low_add (a y : ℚ) :
    high c (max y cutoff) + (low c (max y cutoff) + a) = a + clamped c cutoff y := by
  rw [clamped, ← low_add_high_eq_polynomial]
  ring

/-- The whole groups of every layout contribute each of their values once. -/
theorem groupSum_eq (v : Variant) (aligned : input.size ≠ 0 → v.boundary ∣ input.address) :
    groupSum v input c cutoff =
      .ok (∑ i ∈ Finset.range (8 * (input.size / 8)), clamped c cutoff (lane input i)) := by
  cases v with
  | scalar =>
    rw [groupSum, foldGroups_eq (by decide) aligned]
    show Except.ok (sumPairs _) = _
    rw [sumPairs_eq_sum, sum_foldl_window]
    exact fun a y => congrArg (a + ·) (term_eq_polynomial c _)
  | fourLanes =>
    obtain ⟨v, w, folded, total⟩ := sum_foldl_windows input
      (fun a y => congrArg (a + ·) (low_add_high_eq_polynomial c (max y cutoff)))
      (input.size / 8)
    have reduced := congrArg (fun acc => sumHorizontally acc.1 acc.2) folded
    rw [groupSum, foldHalves_eq (by decide) aligned]
    exact congrArg Except.ok (reduced.trans ((sumHorizontally_eq_sum v w).trans total))
  | eightLanes onBoundary =>
    rw [groupSum, foldGroups_eq (boundary_dvd_group onBoundary).1 aligned]
    show Except.ok (sumHalves _) = _
    rw [sumHalves_eq_sum, sum_foldl_window]
    exact high_add_low_add c cutoff
  | eightLanesFused onBoundary =>
    rw [groupSum, foldGroups_eq (boundary_dvd_group onBoundary).2 aligned]
    show Except.ok (sumHalves _) = _
    rw [sumHalves_eq_sum, sum_foldl_window]
    -- The fused products of exact numbers are the products of the layout without fusion.
    exact high_add_low_add c cutoff

theorem tailSum_eq (values : Array ℚ) :
    tailSum values c cutoff = (values.toList.map (clamped c cutoff)).sum := by
  rw [tailSum, ← Array.foldl_toList, List.sum_eq_foldl, List.foldl_map]
  congr 1
  funext acc y
  exact congrArg (acc + ·) (term_eq_polynomial c _)

/-- The first values of a run, one after the other. -/
theorem sum_range_lane (value : ℚ → ℚ) {m : ℕ} (inside : m ≤ input.size) :
    ∑ i ∈ Finset.range m, value (lane input i) =
      ((input.elements.toList.take m).map value).sum := by
  induction m with
  | zero => rfl
  | succ m ih =>
    have bound : m < input.elements.toList.length := inside
    have last : lane input m = input.elements.toList[m] := by
      rw [lane, ← Array.getElem?_toList, List.getElem?_eq_getElem bound, Option.getD_some]
    rw [Finset.sum_range_succ, ih (Nat.le_of_lt inside), last, List.take_succ_eq_append_getElem bound,
      List.map_append, List.sum_append, List.map_singleton, List.sum_singleton]

/-- Every layout sums the polynomial of every value once, and the constant term as often. -/
theorem run_eq_sum (v : Variant) (aligned : input.size ≠ 0 → v.boundary ∣ input.address) :
    run v input c cutoff =
      .ok ((input.elements.toList.map fun x =>
          let y := max x cutoff
          c.c1 * y + c.c2 * y ^ 2 + c.c3 * y ^ 3 + c.c4 * y ^ 4).sum + input.size * c.c0) := by
  have groups : 8 * (input.size / 8) ≤ input.size := by omega
  have rest : (input.elements.extract (input.size / 8 * 8) input.size).toList =
      input.elements.toList.drop (8 * (input.size / 8)) := by
    rw [Nat.mul_comm, Array.toList_extract, List.extract_eq_take_drop]
    exact List.take_of_length_le (Nat.le_of_eq List.length_drop)
  rw [run, groupSum_eq input c cutoff v aligned, sum_range_lane input _ groups]
  show Except.ok (_ + tailSum _ c cutoff + _) = _
  rw [tailSum_eq, rest, ← List.sum_append, ← List.map_append, List.take_append_drop]
  rfl

/-- A group and one value behind it, three of them above the cutoff. -/
theorem run_eq_sum_of_nine :
    (Variant.eightLanesFused true).boundary ∣ 64 ∧
      run (.eightLanesFused true) ⟨64, #[(-1 : ℚ), 2, 3, -4, 0, 1, 1 / 2, -7, 3]⟩
        ⟨1, 1, 1, 1, 1 / 2⟩ 1 = .ok (597 / 2) := by
  have aligned : (Variant.eightLanesFused true).boundary ∣ 64 := by decide
  refine ⟨aligned, (run_eq_sum _ _ _ _ fun _ => aligned).trans ?_⟩
  decide +kernel

end Sums

end SimdDispatch.SumOfPoly
