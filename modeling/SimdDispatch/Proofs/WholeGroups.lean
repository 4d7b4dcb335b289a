import Mathlib.Data.List.Basic
import SimdDispatch.Proofs.GroupSums
import SimdDispatch.Single

/-!
Where the layouts part. The sum of whole groups depends on nothing but the values in them, what is
behind is added one by one in every layout, and a run that fills no group is the same in all of them.
-/
namespace SimdDispatch.SumOfPoly

section Congruence

variable {α : Type} [Arithmetic α] {s t : Slice α} (count : s.size / 8 = t.size / 8)
  (same : ∀ i < s.size / 8 * 8, lane s i = lane t i)

include same in
theorem window_congr {width offset : Nat} (inside : offset + width ≤ s.size / 8 * 8) :
    window s width offset = window t width offset := by
  apply Vector.ext
  intro i less
  rw [window, window, Vector.getElem_ofFn, Vector.getElem_ofFn]
  exact same _ (by omega)

include count same

theorem foldGroups_congr {β : Type} {boundary : Nat} (divides : boundary ∣ laneBytes * 8)
    (aligned : s.size ≠ 0 → boundary ∣ s.address) (aligned' : t.size ≠ 0 → boundary ∣ t.address)
    (step : β → Vector α 8 → β) (start : β) :
    foldGroups boundary s step start = foldGroups boundary t step start := by
  rw [foldGroups_eq divides aligned, foldGroups_eq divides aligned', ← count]
  apply congrArg Except.ok
  apply List.foldl_ext
  intro acc g listed
  have inside : g < s.size / 8 := List.mem_range.mp listed
  rw [window_congr same (by omega)]

theorem foldHalves_congr {β : Type} {boundary : Nat} (divides : boundary ∣ laneBytes * 4)
    (aligned : s.size ≠ 0 → boundary ∣ s.address) (aligned' : t.size ≠ 0 → boundary ∣ t.address)
    (step : β → Vector α 4 → Vector α 4 → β) (start : β) :
    foldHalves boundary s step start = foldHalves boundary t step start := by
  rw [foldHalves_eq divides aligned, foldHalves_eq divides aligned', ← count]
  apply congrArg Except.ok
  apply List.foldl_ext
  intro acc g listed
  have inside : g < s.size / 8 := List.mem_range.mp listed
  rw [window_congr same (by omega), window_congr same (by omega)]

/-- Runs with the same values in their whole groups have the same sum of them, wherever they lie. -/
theorem groupSum_congr {v : Variant} (aligned : s.size ≠ 0 → v.boundary ∣ s.address)
    (aligned' : t.size ≠ 0 → v.boundary ∣ t.address) (c : Coefficients α) (cutoff : α) :
    groupSum v s c cutoff = groupSum v t c cutoff := by
  cases v with
  | scalar =>
    exact congrArg (Functor.map _) (foldGroups_congr count same (by decide) aligned aligned' _ _)
  | fourLanes =>
    exact congrArg (Functor.map _) (foldHalves_congr count same (by decide) aligned aligned' _ _)
  | eightLanes onBoundary =>
    have divides := (boundary_dvd_group onBoundary).1
    exact congrArg (Functor.map _) (foldGroups_congr count same divides aligned aligned' _ _)
  | eightLanesFused onBoundary =>
    have divides := (boundary_dvd_group onBoundary).2
    exact congrArg (Functor.map _) (foldGroups_congr count same divides aligned aligned' _ _)

end Congruence

section Sums

variable (c : Coefficients Single) (cutoff : Single)

/-- The polynomial of each value, added one after the other from zero. -/
def sequentialSum (values : Array Single) : Single :=
  (values.toList.map fun x => term c (maxNumber x cutoff)).foldl (· + ·) 0

theorem tailSum_eq_sequentialSum (values : Array Single) :
    tailSum values c cutoff = sequentialSum c cutoff values := by
  rw [tailSum, sequentialSum, List.foldl_map, Array.foldl_toList]

theorem reductions_of_zeros :
    sumPairs (.replicate 8 (0 : Single)) = 0 ∧ sumHalves (.replicate 8 (0 : Single)) = 0 ∧
      sumHorizontally (.replicate 4 (0 : Single)) (.replicate 4 0) = 0 := by
  decide +kernel

theorem groupSum_of_few (v : Variant) {input : Slice Single} (few : input.size < 8) :
    groupSum v input c cutoff = .ok 0 := by
  -- Nothing is read, so that no boundary matters and what is reduced are the zeros of the start.
  have empty : input.size / 8 = 0 := by omega
  obtain ⟨pairs, halves, horizontal⟩ := reductions_of_zeros
  cases v with
  | scalar =>
    rw [groupSum, foldGroups, empty]
    exact congrArg Except.ok pairs
  | fourLanes =>
    rw [groupSum, foldHalves, empty]
    exact congrArg Except.ok horizontal
  | eightLanes onBoundary =>
    rw [groupSum, foldGroups, empty]
    exact congrArg Except.ok halves
  | eightLanesFused onBoundary =>
    rw [groupSum, foldGroups, empty]
    exact congrArg Except.ok halves

theorem run_of_few (v : Variant) {input : Slice Single} (few : input.size < 8) :
    run v input c cutoff =
      .ok (0 + sequentialSum c cutoff input.elements + ofCount input.size * c.c0) := by
  have start : input.size / 8 * 8 = 0 := by omega
  rw [run_of_groupSum (groupSum_of_few c cutoff v few), start, tailSum_eq_sequentialSum]
  congr
  exact Array.extract_size

section Append

variable (v : Variant) {address : Nat} {g r : Array Single}

theorem size_append : Slice.size ⟨address, g ++ r⟩ = g.size + r.size := Array.size_append

theorem extract_behind (whole : 8 ∣ g.size) (few : r.size < 8) :
    (g ++ r).extract (Slice.size ⟨address, g ++ r⟩ / 8 * 8) (Slice.size ⟨address, g ++ r⟩) = r := by
  have start : (g.size + r.size) / 8 * 8 = g.size := by omega
  rw [size_append, start]
  simp

theorem groupSum_append (whole : 8 ∣ g.size) (few : r.size < 8)
    (aligned : g.size + r.size ≠ 0 → v.boundary ∣ address) :
    groupSum v ⟨address, g ++ r⟩ c cutoff = groupSum v ⟨0, g⟩ c cutoff := by
  have groups : (g.size + r.size) / 8 * 8 = g.size := by omega
  apply groupSum_congr
  · rw [size_append]
    show (g.size + r.size) / 8 = g.size / 8
    omega
  · intro i inside
    rw [size_append, groups] at inside
    rw [lane, lane, Array.getElem?_append_left inside]
  · rwa [size_append]
  · exact fun _ => Nat.dvd_zero _

end Append

/-- Fewer values than a group has are summed alike by every layout, on every boundary. With whole
groups before them the layouts differ in the sum of the groups alone, which nothing else goes into. -/
theorem layouts_part_on_groups :
    (∀ (v : Variant) (address : Nat) (r : Array Single), r.size < 8 →
      run v ⟨address, r⟩ c cutoff = .ok (0 + sequentialSum c cutoff r + ofCount r.size * c.c0)) ∧
    ∀ (v : Variant) (g : Array Single), 8 ∣ g.size → ∃ sum, ∀ (address : Nat) (r : Array Single),
      r.size < 8 → (g.size + r.size ≠ 0 → v.boundary ∣ address) →
        groupSum v ⟨address, g ++ r⟩ c cutoff = .ok sum ∧
        run v ⟨address, g ++ r⟩ c cutoff =
          .ok (sum + sequentialSum c cutoff r + ofCount (g.size + r.size) * c.c0) := by
  refine ⟨fun v address r few => run_of_few c cutoff v few, fun v g whole => ?_⟩
  have aligned : Slice.size ⟨0, g⟩ ≠ 0 → v.boundary ∣ 0 := fun _ => Nat.dvd_zero _
  obtain ⟨sum, summed⟩ := exists_groupSum aligned c cutoff
  refine ⟨sum, fun address r few aligned => ?_⟩
  have groups := (groupSum_append c cutoff v whole few aligned).trans summed
  refine ⟨groups, (run_of_groupSum groups).trans ?_⟩
  rw [extract_behind whole few, tailSum_eq_sequentialSum, size_append]

/-- A missing value behind a group of ones on a boundary, and two values on none. -/
theorem layouts_part_on_groups_of_nine :
    let one : Single := ⟨0x3f800000⟩
    let c : Coefficients Single := ⟨one, one, one, one, one⟩
    let group : Array Single := .replicate 8 one
    let missing : Single := ⟨0x7fc00000⟩
    8 ∣ group.size ∧ (Variant.eightLanesFused true).boundary ∣ 64 ∧ ¬ Variant.fourLanes.boundary ∣ 4 ∧
      run .fourLanes ⟨4, #[one, missing]⟩ c 0 =
        .ok (0 + sequentialSum c 0 #[one, missing] + ofCount 2 * one) ∧
      ∃ sum, run (.eightLanesFused true) ⟨64, group ++ #[missing]⟩ c 0 =
        .ok (sum + sequentialSum c 0 #[missing] + ofCount 9 * one) := by
  intro one c group missing
  have whole : 8 ∣ group.size := by decide
  have aligned : (Variant.eightLanesFused true).boundary ∣ 64 := by decide
  obtain ⟨small, large⟩ := layouts_part_on_groups c 0
  obtain ⟨sum, behind⟩ := large (.eightLanesFused true) group whole
  have few : (#[missing] : Array Single).size < 8 := by decide
  exact ⟨whole, aligned, by decide, small .fourLanes 4 #[one, missing] (by decide), sum,
    (behind 64 #[missing] few fun _ => aligned).2⟩

end Sums

end SimdDispatch.SumOfPoly
