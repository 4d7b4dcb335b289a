import SimdDispatch.Kernel.SumOfPoly
import SimdDispatch.Proofs.Slice

/-!
The loops over groups of eight lanes without their checks: on a suitable boundary no access fails,
and a loop is a fold over the windows that its groups read.
-/
namespace SimdDispatch.SumOfPoly

theorem get_zipWith {α : Type} {width : Nat} (f : α → α → α) (v w : Vector α width)
    (j : Fin width) : (v.zipWith f w).get j = f (v.get j) (w.get j) :=
  Vector.getElem_zipWith j.isLt

variable {α : Type} [Arithmetic α]

/-- Lane `i` of a run, zero behind its end. -/
def lane (s : Slice α) (i : Nat) : α := s.elements[i]?.getD 0

/-- The lanes from `offset` on. -/
def window (s : Slice α) (width offset : Nat) : Vector α width :=
  Vector.ofFn fun j => lane s (offset + j.val)

theorem load_eq_window {s : Slice α} {boundary width offset : Nat}
    (aligned : (s.address + laneBytes * offset) % boundary = 0)
    (inside : offset + width ≤ s.size) :
    s.load boundary width offset = .ok (window s width offset) := by
  obtain ⟨v, loaded, read⟩ := Slice.exists_load width aligned inside
  rw [loaded]
  congr 1
  apply Vector.ext
  intro i h
  rw [window, Vector.getElem_ofFn, lane, read i h]
  rfl

section Loops

variable {β : Type} {input : Slice α} {boundary : Nat}

theorem foldGroups_eq (divides : boundary ∣ laneBytes * 8)
    (aligned : input.size ≠ 0 → boundary ∣ input.address) (step : β → Vector α 8 → β) (start : β) :
    foldGroups boundary input step start =
      .ok ((List.range (input.size / 8)).foldl (fun acc g => step acc (window input 8 (8 * g)))
        start) := by
  refine foldlM_range_eq_foldl _ (fun g less acc => ?_) start
  have inside : 8 * g + 8 ≤ input.size := by omega
  have distance : boundary ∣ laneBytes * (8 * g) := Slice.dvd_of_whole divides g
  rw [load_eq_window (Slice.mod_eq_zero (aligned (by omega)) distance) inside]
  rfl

theorem foldHalves_eq (divides : boundary ∣ laneBytes * 4)
    (aligned : input.size ≠ 0 → boundary ∣ input.address) (step : β → Vector α 4 → Vector α 4 → β)
    (start : β) :
    foldHalves boundary input step start =
      .ok ((List.range (input.size / 8)).foldl
        (fun acc g => step acc (window input 4 (8 * g)) (window input 4 (8 * g + 4))) start) := by
  refine foldlM_range_eq_foldl _ (fun g less acc => ?_) start
  have inside : 8 * g + 8 ≤ input.size := by omega
  have first : boundary ∣ laneBytes * (8 * g) := by
    rw [show 8 * g = 4 * (2 * g) by omega]
    exact Slice.dvd_of_whole divides (2 * g)
  have second : boundary ∣ laneBytes * (8 * g + 4) := by
    rw [show 8 * g + 4 = 4 * (2 * g + 1) by omega]
    exact Slice.dvd_of_whole divides (2 * g + 1)
  have start := aligned (by omega)
  rw [load_eq_window (Slice.mod_eq_zero start first) (by omega),
    load_eq_window (Slice.mod_eq_zero start second) (by omega)]
  rfl

end Loops

section Sums

/-- Whole groups keep to the boundary of a vector of eight lanes. -/
theorem boundary_dvd_group (onBoundary : Bool) :
    (Variant.eightLanes onBoundary).boundary ∣ laneBytes * 8 ∧
      (Variant.eightLanesFused onBoundary).boundary ∣ laneBytes * 8 := by
  cases onBoundary <;> decide

variable {s : Slice α} {v : Variant}

theorem exists_groupSum (aligned : s.size ≠ 0 → v.boundary ∣ s.address) (c : Coefficients α)
    (cutoff : α) : ∃ value, groupSum v s c cutoff = .ok value := by
  cases v with
  | scalar =>
    rw [groupSum, foldGroups_eq (by decide) aligned]
    exact ⟨_, rfl⟩
  | fourLanes =>
    rw [groupSum, foldHalves_eq (by decide) aligned]
    exact ⟨_, rfl⟩
  | eightLanes onBoundary =>
    rw [groupSum, foldGroups_eq (boundary_dvd_group onBoundary).1 aligned]
    exact ⟨_, rfl⟩
  | eightLanesFused onBoundary =>
    rw [groupSum, foldGroups_eq (boundary_dvd_group onBoundary).2 aligned]
    exact ⟨_, rfl⟩

theorem run_of_groupSum {c : Coefficients α} {cutoff value : α}
    (summed : groupSum v s c cutoff = .ok value) :
    run v s c cutoff = .ok (value + tailSum (s.elements.extract (s.size / 8 * 8) s.size) c cutoff +
      ofCount s.size * c.c0) := by
  rw [run, summed]
  rfl

theorem exists_run (aligned : s.size ≠ 0 → v.boundary ∣ s.address) (c : Coefficients α)
    (cutoff : α) : ∃ value, run v s c cutoff = .ok value := by
  obtain ⟨value, summed⟩ := exists_groupSum aligned c cutoff
  exact ⟨_, run_of_groupSum summed⟩

end Sums

section Lanes

theorem get_window (s : Slice α) {width : Nat} (offset : Nat) (j : Fin width) :
    (window s width offset).get j = lane s (offset + j) :=
  Vector.getElem_ofFn j.isLt

/-- The reduction by halves lane by lane. -/
theorem sumHalves_eq (v : Vector α 8) :
    sumHalves v = ((v.get 0 + v.get 4) + (v.get 1 + v.get 5)) +
      ((v.get 2 + v.get 6) + (v.get 3 + v.get 7)) := by
  have halves : ∀ j, ((lowerHalf v).zipWith (· + ·) (upperHalf v)).get j =
      (lowerHalf v).get j + (upperHalf v).get j := get_zipWith _ _ _
  simp only [sumHalves, repeatUpper, repeatOdd, get_zipWith, halves]
  rfl

end Lanes

end SimdDispatch.SumOfPoly
