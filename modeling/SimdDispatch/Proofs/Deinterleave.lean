import Mathlib.Tactic.IntervalCases
import SimdDispatch.Kernel.Deinterleave
import SimdDispatch.Proofs.Slice
import SimdDispatch.Single

/-!
What the kernels that split complex samples leave in their outputs. The groups of each layout and
the rest behind them extend one prefix of finished entries, so that all layouts end the same.
-/
namespace SimdDispatch.Deinterleave

variable {α : Type}

/-- An output whose first `k` entries are a part of the samples, the others being as before. -/
structure Filled (part : Complex α → α) (input : Slice (Complex α)) (k : Nat)
    (before after : Slice α) : Prop where
  address : after.address = before.address
  size : after.size = before.size
  done : ∀ i < k, after.elements[i]? = input.elements[i]?.map part
  kept : ∀ i, k ≤ i → after.elements[i]? = before.elements[i]?

section Output

variable {part : Complex α → α} {input : Slice (Complex α)} {k : Nat} {before mid : Slice α}

theorem Filled.start : Filled part input 0 before before :=
  ⟨rfl, rfl, fun i less => absurd less (Nat.not_lt_zero i), fun _ _ => rfl⟩

theorem Filled.overwrite (filled : Filled part input k before mid) (xs : List α)
    (room : k + xs.length ≤ before.size)
    (parts : ∀ j < xs.length, xs[j]? = input.elements[k + j]?.map part) :
    Filled part input (k + xs.length) before (mid.overwrite k xs) := by
  refine ⟨filled.address, (mid.size_overwrite k xs).trans filled.size, ?_, ?_⟩
  · intro i less
    rw [Slice.getElem?_overwrite, filled.size]
    by_cases early : i < k
    · rw [if_neg (by omega)]
      exact filled.done i early
    · obtain ⟨j, rfl⟩ : ∃ j, i = k + j := ⟨i - k, by omega⟩
      rw [if_pos (by omega), Nat.add_sub_cancel_left]
      exact parts j (by omega)
  · intro i behind
    rw [Slice.getElem?_overwrite, if_neg (by omega)]
    exact filled.kept i (by omega)

theorem Filled.store (filled : Filled part input k before mid) {boundary width : Nat}
    {v : Vector α width} (start : boundary ∣ before.address) (distance : boundary ∣ laneBytes * k)
    (room : k + width ≤ before.size)
    (parts : ∀ (j : Nat) (h : j < width), input.elements[k + j]?.map part = some v[j]) :
    ∃ after, mid.store boundary k v = .ok after ∧
      Filled part input (k + width) before after := by
  have onBoundary : (mid.address + laneBytes * k) % boundary = 0 := by
    rw [filled.address]
    exact Slice.mod_eq_zero start distance
  refine ⟨mid.write k v, Slice.store_eq_ok onBoundary (filled.size ▸ room), ?_⟩
  have length : v.toList.length = width := Vector.length_toList
  have written := filled.overwrite v.toList (by omega) fun j less => by
    rw [parts j (by omega), List.getElem?_eq_getElem less, Vector.getElem_toList]
  rw [length] at written
  exact written

theorem Filled.unique {left right : Slice α} (first : Filled part input k before left)
    (second : Filled part input k before right) : left = right := by
  obtain ⟨address, elements⟩ := left
  obtain ⟨address', elements'⟩ := right
  have start : address = address' := first.address.trans second.address.symm
  have same : elements = elements' := by
    apply Array.ext_getElem?
    intro i
    by_cases early : i < k
    · exact (first.done i early).trans (second.done i early).symm
    · exact (first.kept i (by omega)).trans (second.kept i (by omega)).symm
  rw [start, same]

end Output

/-- Outputs that hold both parts of the first `k` samples. -/
structure SplitUpTo (input : Slice (Complex α)) (k : Nat) (before after : Outputs α) : Prop where
  real : Filled Complex.re input k before.1 after.1
  imag : Filled Complex.im input k before.2 after.2

/-- What a kernel relies on: outputs that can hold the input and, unless it is empty, addresses on
the boundary of the kernel. -/
structure Variant.Accepts (v : Variant) (input : Slice (Complex α)) (out : Outputs α) : Prop where
  real : input.size ≤ out.1.size
  imag : input.size ≤ out.2.size
  aligned : input.size ≠ 0 →
    v.boundary ∣ input.address ∧ v.boundary ∣ out.1.address ∧ v.boundary ∣ out.2.address

theorem evenLanes_get (a b : Vector α 4) (j : Nat) (h : j < 4) :
    (evenLanes a b)[j] = (a ++ b)[2 * j] ∧ (oddLanes a b)[j] = (a ++ b)[2 * j + 1] := by
  rw [Vector.getElem_append, Vector.getElem_append]
  interval_cases j <;> exact ⟨rfl, rfl⟩

/-- Exchanging the middle quarters first makes the lanes taken from each half the even ones. -/
theorem evenLanesByHalf_get (a b : Vector α 8) (j : Nat) (h : j < 8) :
    (evenLanesByHalf (lowerHalves a b) (upperHalves a b))[j] = (a ++ b)[2 * j] ∧
      (oddLanesByHalf (lowerHalves a b) (upperHalves a b))[j] = (a ++ b)[2 * j + 1] := by
  rw [Vector.getElem_append, Vector.getElem_append]
  interval_cases j <;> exact ⟨rfl, rfl⟩

section Groups

variable {input : Slice (Complex α)} {before out : Outputs α} {boundary width : Nat}

/-- Storing two vectors that hold the parts of the next samples. -/
theorem SplitUpTo.store {k : Nat} (split : SplitUpTo input k before out) (re im : Vector α width)
    (real : boundary ∣ before.1.address) (imag : boundary ∣ before.2.address)
    (distance : boundary ∣ laneBytes * k) (realRoom : k + width ≤ before.1.size)
    (imagRoom : k + width ≤ before.2.size)
    (parts : ∀ (j : Nat) (h : j < width), input.elements[k + j]?.map Complex.re = some re[j] ∧
      input.elements[k + j]?.map Complex.im = some im[j]) :
    ∃ after, (do return (← out.1.store boundary k re, ← out.2.store boundary k im)) =
      (.ok after : Except AccessFault (Outputs α)) ∧ SplitUpTo input (k + width) before after := by
  obtain ⟨first, stored, filled⟩ := split.real.store real distance realRoom fun j h => (parts j h).1
  obtain ⟨second, stored', filled'⟩ :=
    split.imag.store imag distance imagRoom fun j h => (parts j h).2
  refine ⟨(first, second), ?_, filled, filled'⟩
  simp only [stored, stored', bind, Except.bind, pure, Except.pure]

/-- The lanes of the samples from `k` on, read as two vectors side by side. -/
theorem exists_samples (k width : Nat) (aligned : boundary ∣ input.address)
    (first : boundary ∣ laneBytes * (2 * k)) (second : boundary ∣ laneBytes * (2 * k + width))
    (inside : k + width ≤ input.size) :
    ∃ a b : Vector α width, input.lanes.load boundary width (2 * k) = .ok a ∧
      input.lanes.load boundary width (2 * k + width) = .ok b ∧
      ∀ (j : Nat) (h : j < width),
        input.elements[k + j]?.map Complex.re = some (a ++ b)[2 * j] ∧
          input.elements[k + j]?.map Complex.im = some (a ++ b)[2 * j + 1] := by
  obtain ⟨a, b, loaded, loaded', read⟩ := Slice.exists_load_pair (s := input.lanes) width
    (Slice.mod_eq_zero aligned first) (Slice.mod_eq_zero aligned second)
    (by rw [Slice.size_lanes]; omega)
  refine ⟨a, b, loaded, loaded', fun j h => ?_⟩
  have place : 2 * (k + j) = 2 * k + 2 * j := Nat.mul_add 2 k j
  rw [← (Slice.getElem?_lanes input (k + j)).1, ← (Slice.getElem?_lanes input (k + j)).2, place]
  exact ⟨read (2 * j) (by omega), read (2 * j + 1) (by omega)⟩

/-- One group of any width splits the next samples, if the two regroupings of the lanes read from
it are those with an even place and those with an odd one. -/
theorem group_splits {even odd : Vector α width → Vector α width → Vector α width}
    (regrouped : ∀ a b (j : Nat) (h : j < width),
      (even a b)[j] = (a ++ b)[2 * j] ∧ (odd a b)[j] = (a ++ b)[2 * j + 1])
    (vectors : boundary ∣ laneBytes * width) (aligned : boundary ∣ input.address)
    (real : boundary ∣ before.1.address) (imag : boundary ∣ before.2.address)
    (realRoom : input.size ≤ before.1.size) (imagRoom : input.size ≤ before.2.size)
    {g : Nat} (inside : width * (g + 1) ≤ input.size)
    (split : SplitUpTo input (width * g) before out) :
    ∃ after, (do
        let a ← input.lanes.load boundary width (2 * width * g)
        let b ← input.lanes.load boundary width (2 * width * g + width)
        return (← out.1.store boundary (width * g) (even a b),
          ← out.2.store boundary (width * g) (odd a b))) =
        (.ok after : Except AccessFault (Outputs α)) ∧
      SplitUpTo input (width * (g + 1)) before after := by
  have whole : ∀ n, boundary ∣ laneBytes * (width * n) := Slice.dvd_of_whole vectors
  have next : width * (g + 1) = width * g + width := Nat.mul_succ width g
  have twice : 2 * (width * g) = width * (2 * g) := Nat.mul_left_comm 2 width g
  have twice' : 2 * (width * g) + width = width * (2 * g + 1) := by rw [twice, Nat.mul_succ]
  obtain ⟨a, b, loaded, loaded', parts⟩ := exists_samples (width * g) width aligned
    (by rw [twice]; exact whole _) (by rw [twice']; exact whole _) (by omega)
  obtain ⟨after, stored, filled⟩ := split.store (even a b) (odd a b) real imag (whole g)
    (by omega) (by omega) fun j h => by
      rw [(regrouped a b j h).1, (regrouped a b j h).2]
      exact parts j h
  refine ⟨after, ?_, next ▸ filled⟩
  rw [← Nat.mul_assoc] at loaded loaded'
  rw [loaded, loaded']
  exact stored

end Groups

section Rest

variable {input : Slice (Complex α)} {before out : Outputs α}

/-- One loop that writes both outputs in turn is two loops that write one each. -/
theorem foldl_parts (samples : List (Complex α)) (base : Nat) (real imag : Slice α) :
    (samples.zipIdx base).foldl
        (fun (re, im) (z, i) => (re.setIfInBounds i z.re, im.setIfInBounds i z.im))
        (real.elements, imag.elements) =
      ((real.overwrite base (samples.map Complex.re)).elements,
        (imag.overwrite base (samples.map Complex.im)).elements) := by
  induction samples generalizing base real imag with
  | nil => rfl
  | cons z rest ih =>
    exact ih (base + 1) { real with elements := real.elements.setIfInBounds base z.re }
      { imag with elements := imag.elements.setIfInBounds base z.im }

theorem splitRest_eq {base : Nat} (realRoom : input.size ≤ out.1.size)
    (imagRoom : input.size ≤ out.2.size) :
    splitRest input base out =
      (out.1.overwrite base ((input.elements.toList.drop base).map Complex.re),
        out.2.overwrite base ((input.elements.toList.drop base).map Complex.im)) := by
  have whole : min input.size (min out.1.size out.2.size) = input.size := by omega
  have rest : (input.elements.extract base input.size).toList = input.elements.toList.drop base := by
    rw [Array.toList_extract, List.extract_eq_take_drop, List.take_of_length_le]
    rw [List.length_drop, Array.length_toList]
    exact Nat.le_refl _
  simp only [splitRest, whole, ← Array.foldl_toList, Array.toList_zipIdx, rest, foldl_parts]
  rfl

theorem splitRest_splits {base : Nat} (split : SplitUpTo input base before out)
    (inside : base ≤ input.size) (realRoom : input.size ≤ before.1.size)
    (imagRoom : input.size ≤ before.2.size) :
    SplitUpTo input input.size before (splitRest input base out) := by
  have continued : ∀ (part : Complex α → α) {old mid : Slice α}, Filled part input base old mid →
      input.size ≤ old.size → Filled part input input.size old
        (mid.overwrite base ((input.elements.toList.drop base).map part)) := by
    intro part old mid filled room
    have length : base + ((input.elements.toList.drop base).map part).length = input.size := by
      rw [List.length_map, List.length_drop, Array.length_toList]
      exact Nat.add_sub_cancel' inside
    have behind := filled.overwrite _ (length ▸ room) fun j _ => by
      rw [List.getElem?_map, List.getElem?_drop, Array.getElem?_toList]
    rwa [length] at behind
  rw [splitRest_eq (split.real.size ▸ realRoom) (split.imag.size ▸ imagRoom)]
  exact ⟨continued _ split.real realRoom, continued _ split.imag imagRoom⟩

end Rest

/-- Whole groups and then the rest behind them take every sample once. -/
theorem groups_and_tail_split {input : Slice (Complex α)} {before : Outputs α} (width : Nat)
    {step : Outputs α → Nat → Except AccessFault (Outputs α)} (realRoom : input.size ≤ before.1.size)
    (imagRoom : input.size ≤ before.2.size)
    (keeps : ∀ g, width * (g + 1) ≤ input.size → ∀ out, SplitUpTo input (width * g) before out →
      ∃ after, step out g = .ok after ∧ SplitUpTo input (width * (g + 1)) before after) :
    ∃ after, ((List.range (input.size / width)).foldlM step before >>=
        splitTail input (input.size / width * width)) = .ok after ∧
      SplitUpTo input input.size before after := by
  have none : SplitUpTo input (width * 0) before before := ⟨.start, .start⟩
  obtain ⟨out, looped, split⟩ := foldlM_range_ok (fun g => SplitUpTo input (width * g) before) none
    (input.size / width) fun g less out split => by
      refine keeps g (Nat.le_trans (Nat.mul_le_mul_left width less) ?_) out split
      exact Nat.mul_div_le input.size width
  refine ⟨splitRest input (input.size / width * width) out, ?_, ?_⟩
  · rw [looped]
    exact if_pos ⟨split.real.size ▸ realRoom, split.imag.size ▸ imagRoom⟩
  · rw [Nat.mul_comm] at split
    exact splitRest_splits split (Nat.div_mul_le_self input.size width) realRoom imagRoom

theorem run_splitUpTo {v : Variant} {input : Slice (Complex α)} {out : Outputs α}
    (accepts : v.Accepts input out) :
    ∃ after, run v out.1 out.2 input = .ok after ∧ SplitUpTo input input.size out after := by
  obtain ⟨realRoom, imagRoom, aligned⟩ := accepts
  cases v with
  | scalar =>
    have none : SplitUpTo input 0 out out := ⟨.start, .start⟩
    exact ⟨_, rfl, splitRest_splits none (Nat.zero_le _) realRoom imagRoom⟩
  | fourLanes =>
    refine groups_and_tail_split 4 realRoom imagRoom fun g inside mid split => ?_
    obtain ⟨start, real, imag⟩ := aligned (by omega)
    exact group_splits evenLanes_get (by decide) start real imag realRoom imagRoom inside split
  | eightLanes onBoundary =>
    refine groups_and_tail_split 8 realRoom imagRoom fun g inside mid split => ?_
    obtain ⟨start, real, imag⟩ := aligned (by omega)
    have vectors : (Variant.eightLanes onBoundary).boundary ∣ laneBytes * 8 := by
      cases onBoundary <;> decide
    exact group_splits evenLanesByHalf_get vectors start real imag realRoom imagRoom inside split

/-- Every layout separates the parts of the samples, whatever bits they have: entry by entry the
outputs hold them, behind the input they are as they were, and all layouts give the same ones. -/
theorem run_separates (real imag : Slice α) (input : Slice (Complex α))
    (realRoom : input.size ≤ real.size) (imagRoom : input.size ≤ imag.size) :
    ∃ re im : Slice α,
      (∀ v : Variant, v.Accepts input (real, imag) → run v real imag input = .ok (re, im)) ∧
      re.address = real.address ∧ im.address = imag.address ∧
      re.size = real.size ∧ im.size = imag.size ∧
      (∀ (i : Nat) (z : Complex α), input.elements[i]? = some z →
        re.elements[i]? = some z.re ∧ im.elements[i]? = some z.im) ∧
      ∀ i : Nat, input.size ≤ i →
        re.elements[i]? = real.elements[i]? ∧ im.elements[i]? = imag.elements[i]? := by
  have scalar : Variant.scalar.Accepts input (real, imag) :=
    ⟨realRoom, imagRoom, fun _ => ⟨Nat.one_dvd _, Nat.one_dvd _, Nat.one_dvd _⟩⟩
  obtain ⟨⟨re, im⟩, -, split⟩ := run_splitUpTo scalar
  refine ⟨re, im, fun v accepts => ?_, split.real.address, split.imag.address, split.real.size,
    split.imag.size, fun i z found => ?_, fun i behind => ?_⟩
  · obtain ⟨⟨re', im'⟩, ran, other⟩ := run_splitUpTo accepts
    have same : re' = re := other.real.unique split.real
    have same' : im' = im := other.imag.unique split.imag
    rw [← same, ← same']
    exact ran
  · have inside : i < input.size := (Array.getElem?_eq_some_iff.mp found).1
    rw [split.real.done i inside, split.imag.done i inside, found]
    exact ⟨rfl, rfl⟩
  · exact ⟨split.real.kept i behind, split.imag.kept i behind⟩

/-- Thirteen samples that are no numbers: a group of eight, one of four and one sample alone. -/
theorem run_separates_missing_numbers :
    let sample (i : Nat) : Complex Single :=
      ⟨⟨0x7f800001 + UInt32.ofNat i⟩, ⟨0xffc00001 + UInt32.ofNat i⟩⟩
    let input : Slice (Complex Single) := ⟨64, ((List.range 13).map sample).toArray⟩
    let real : Slice Single := ⟨192, .replicate 15 ⟨1⟩⟩
    let imag : Slice Single := ⟨256, .replicate 13 ⟨2⟩⟩
    input.size ≤ real.size ∧ input.size ≤ imag.size ∧
      (∀ v : Variant, v.Accepts input (real, imag)) ∧
      ∃ re im : Slice Single, (∀ v, run v real imag input = .ok (re, im)) ∧
        re.elements[12]? = some ⟨0x7f80000d⟩ ∧ im.elements[12]? = some ⟨0xffc0000d⟩ ∧
        re.elements[13]? = some ⟨1⟩ := by
  intro sample input real imag
  have realRoom : input.size ≤ real.size := by decide
  have imagRoom : input.size ≤ imag.size := by decide
  have accepts : ∀ v : Variant, v.Accepts input (real, imag) := by
    intro v
    refine ⟨realRoom, imagRoom, fun _ => ?_⟩
    have divides : v.boundary ∣ 64 := by
      cases v with
      | scalar => decide
      | fourLanes => decide
      | eightLanes aligned => cases aligned <;> decide
    exact ⟨divides, Nat.dvd_trans divides (by decide), Nat.dvd_trans divides (by decide)⟩
  obtain ⟨re, im, ran, -, -, -, -, parts, kept⟩ :=
    run_separates real imag input realRoom imagRoom
  obtain ⟨last, last'⟩ := parts 12 (sample 12) (by decide)
  exact ⟨realRoom, imagRoom, accepts, re, im, fun v => ran v (accepts v), last, last',
    (kept 13 (by decide)).1⟩

end SimdDispatch.Deinterleave
