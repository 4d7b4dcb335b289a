import SimdDispatch.Catalog
import SimdDispatch.Proofs.Deinterleave
import SimdDispatch.Proofs.Event
import SimdDispatch.Proofs.GroupSums

/-!
The accesses of the kernels as data. A kernel gives a result exactly if all that it lists is inside
its runs and on its boundary, so the lists leave no access out. On buffers that start on the boundary
which an implementation declares, and with outputs that can hold the input, all of it is.
-/
namespace SimdDispatch

theorem exists_bind_iff {ε α β : Type} {first : Except ε α} {next : α → Except ε β} {passes : Prop}
    (each : ∀ a, first = .ok a → ((∃ b, next a = .ok b) ↔ passes)) :
    (∃ b, (first >>= next) = .ok b) ↔ (∃ a, first = .ok a) ∧ passes := by
  constructor
  · rintro ⟨b, ok⟩
    obtain ⟨a, found, rest⟩ := bind_success ok
    exact ⟨⟨a, found⟩, (each a found).mp ⟨b, rest⟩⟩
  · rintro ⟨⟨a, found⟩, held⟩
    rw [bind_of_success found]
    exact (each a found).mpr held

theorem exists_map_iff {ε α β : Type} {first : Except ε α} (f : α → β) :
    (∃ b, f <$> first = .ok b) ↔ ∃ a, first = .ok a := by
  cases first with
  | error e => simp [Functor.map, Except.map]
  | ok a => exact ⟨fun _ => ⟨a, rfl⟩, fun _ => ⟨f a, rfl⟩⟩

theorem exists_bind_pure_iff {ε α β : Type} {first : Except ε α} (f : α → β) :
    (∃ b, (first >>= fun a => pure (f a)) = .ok b) ↔ ∃ a, first = .ok a := by
  rw [← map_eq_pure_bind, exists_map_iff]

section Loops

variable {ε β : Type} {step : β → Nat → Except ε β} {invariant : β → Prop} {start : β}

theorem foldlM_range_succ (step : β → Nat → Except ε β) (n : Nat) (start : β) :
    (List.range (n + 1)).foldlM step start = (List.range n).foldlM step start >>= (step · n) := by
  rw [List.range_succ, List.foldlM_append]
  simp

theorem foldlM_range_keeps
    (keeps : ∀ b g b', invariant b → step b g = .ok b' → invariant b') (initial : invariant start)
    {n : Nat} {b : β} (looped : (List.range n).foldlM step start = .ok b) : invariant b := by
  induction n generalizing b with
  | zero =>
    cases looped
    exact initial
  | succ n ih =>
    rw [foldlM_range_succ] at looped
    obtain ⟨mid, before, last⟩ := bind_success looped
    exact keeps mid n b (ih before) last

/-- A loop in which the invariant decides whether a step succeeds, and not the values that it works
on, succeeds exactly if every step does. -/
theorem exists_foldlM_range_iff {passes : Nat → Prop}
    (keeps : ∀ b g b', invariant b → step b g = .ok b' → invariant b')
    (steps : ∀ b g, invariant b → ((∃ b', step b g = .ok b') ↔ passes g))
    (initial : invariant start) (n : Nat) :
    (∃ b, (List.range n).foldlM step start = .ok b) ↔ ∀ g < n, passes g := by
  induction n with
  | zero => exact ⟨fun _ g less => absurd less (Nat.not_lt_zero g), fun _ => ⟨start, rfl⟩⟩
  | succ n ih =>
    rw [foldlM_range_succ, Nat.forall_lt_succ_right, ← ih]
    exact exists_bind_iff fun b looped => steps b n (foldlM_range_keeps keeps initial looped)

end Loops

/-- What one instruction reads or writes: `width` lanes from `offset` on, at an address that must be
on `boundary`. -/
structure Access where
  boundary : Nat
  width : Nat
  offset : Nat

/-- An access at any address, or one that is bound to the width of its vector in bytes. -/
def Access.Natural (a : Access) : Prop := a.boundary = 1 ∨ a.boundary = laneBytes * a.width

namespace Slice

variable {α : Type}

structure Admits (s : Slice α) (a : Access) : Prop where
  onBoundary : a.boundary ∣ s.address + laneBytes * a.offset
  inside : a.offset + a.width ≤ s.size

/-- The elements from `first` up to `last` are a part of the run. -/
structure HasRange (s : Slice α) (first last : Nat) : Prop where
  ordered : first ≤ last
  inside : last ≤ s.size

structure SamePlace (s t : Slice α) : Prop where
  address : s.address = t.address
  size : s.size = t.size

section Access

variable {s t : Slice α} {boundary width offset : Nat}

theorem exists_load_iff :
    (∃ v : Vector α width, s.load boundary width offset = .ok v) ↔
      s.Admits ⟨boundary, width, offset⟩ := by
  constructor
  · rintro ⟨v, loaded⟩
    unfold load at loaded
    split at loaded
    · cases loaded
    · rename_i onBoundary
      split at loaded
      · rename_i inside
        exact ⟨Nat.dvd_of_mod_eq_zero (not_not.mp onBoundary), inside⟩
      · cases loaded
  · rintro ⟨onBoundary, inside⟩
    obtain ⟨v, loaded, -⟩ := exists_load width (Nat.mod_eq_zero_of_dvd onBoundary) inside
    exact ⟨v, loaded⟩

theorem exists_store_iff (v : Vector α width) :
    (∃ t, s.store boundary offset v = .ok t) ↔ s.Admits ⟨boundary, width, offset⟩ := by
  constructor
  · rintro ⟨t, stored⟩
    unfold store at stored
    split at stored
    · cases stored
    · rename_i onBoundary
      split at stored
      · rename_i inside
        exact ⟨Nat.dvd_of_mod_eq_zero (not_not.mp onBoundary), inside⟩
      · cases stored
  · rintro ⟨onBoundary, inside⟩
    exact ⟨_, store_eq_ok (Nat.mod_eq_zero_of_dvd onBoundary) inside⟩

theorem SamePlace.of_store {v : Vector α width} (stored : s.store boundary offset v = .ok t) :
    t.SamePlace s := by
  obtain ⟨onBoundary, inside⟩ := (exists_store_iff v).mp ⟨t, stored⟩
  rw [store_eq_ok (Nat.mod_eq_zero_of_dvd onBoundary) inside] at stored
  cases stored
  exact ⟨rfl, s.size_overwrite offset v.toList⟩

theorem SamePlace.trans {u : Slice α} (first : s.SamePlace t) (second : t.SamePlace u) :
    s.SamePlace u :=
  ⟨first.address.trans second.address, first.size.trans second.size⟩

theorem SamePlace.admits_iff (same : s.SamePlace t) {a : Access} : s.Admits a ↔ t.Admits a := by
  constructor
  · rintro ⟨onBoundary, inside⟩
    exact ⟨same.address ▸ onBoundary, same.size ▸ inside⟩
  · rintro ⟨onBoundary, inside⟩
    exact ⟨same.address ▸ onBoundary, same.size ▸ inside⟩

end Access

end Slice

namespace SumOfPoly

/-- What a layout reads of group `g`. -/
def Variant.loads (v : Variant) (g : Nat) : List Access :=
  match v with
  | .scalar => [⟨v.boundary, 8, 8 * g⟩]
  | .fourLanes => [⟨v.boundary, 4, 8 * g⟩, ⟨v.boundary, 4, 8 * g + 4⟩]
  | .eightLanes _ => [⟨v.boundary, 8, 8 * g⟩]
  | .eightLanesFused _ => [⟨v.boundary, 8, 8 * g⟩]

/-- All that is read of the whole groups can be, and the rest behind them is a part of the input. -/
structure Variant.Admits {α : Type} (v : Variant) (input : Slice α) : Prop where
  loads : ∀ g < input.size / 8, ∀ a ∈ v.loads g, input.Admits a
  tail : input.HasRange (input.size / 8 * 8) input.size

theorem Variant.loads_natural (v : Variant) (g : Nat) :
    ∀ a ∈ v.loads g, a.boundary = v.boundary ∧ a.Natural := by
  cases v with
  | scalar => simp [loads, boundary, Access.Natural]
  | fourLanes => simp [loads, boundary, Access.Natural, laneBytes]
  | eightLanes aligned => cases aligned <;> simp [loads, boundary, Access.Natural, laneBytes]
  | eightLanesFused aligned => cases aligned <;> simp [loads, boundary, Access.Natural, laneBytes]

variable {α : Type} {input : Slice α}

section Groups

variable {β : Type} {boundary : Nat}

theorem exists_foldGroups_iff (step : β → Vector α 8 → β) (start : β) :
    (∃ b, foldGroups boundary input step start = .ok b) ↔
      ∀ g < input.size / 8, input.Admits ⟨boundary, 8, 8 * g⟩ := by
  refine exists_foldlM_range_iff (fun _ _ _ (_ : True) _ => trivial) (fun acc g _ => ?_) trivial _
  exact (exists_bind_pure_iff (step acc)).trans Slice.exists_load_iff

theorem exists_foldHalves_iff (step : β → Vector α 4 → Vector α 4 → β) (start : β) :
    (∃ b, foldHalves boundary input step start = .ok b) ↔
      ∀ g < input.size / 8,
        input.Admits ⟨boundary, 4, 8 * g⟩ ∧ input.Admits ⟨boundary, 4, 8 * g + 4⟩ := by
  refine exists_foldlM_range_iff (fun _ _ _ (_ : True) _ => trivial) (fun acc g _ => ?_) trivial _
  rw [← Slice.exists_load_iff, ← Slice.exists_load_iff]
  exact exists_bind_iff fun v _ => exists_bind_pure_iff (step acc v)

end Groups

variable [Arithmetic α]

theorem exists_groupSum_iff (v : Variant) (c : Coefficients α) (cutoff : α) :
    (∃ value, groupSum v input c cutoff = .ok value) ↔
      ∀ g < input.size / 8, ∀ a ∈ v.loads g, input.Admits a := by
  cases v with
  | fourLanes =>
    rw [groupSum, exists_map_iff, exists_foldHalves_iff]
    simp [Variant.loads]
  | _ =>
    rw [groupSum, exists_map_iff, exists_foldGroups_iff]
    simp [Variant.loads]

/-- The accesses of a layout are all that its success depends on. -/
theorem exists_run_iff (v : Variant) (input : Slice α) (c : Coefficients α) (cutoff : α) :
    (∃ sum, run v input c cutoff = .ok sum) ↔ v.Admits input := by
  have ran : (∃ sum, run v input c cutoff = .ok sum) ↔ ∃ value, groupSum v input c cutoff = .ok value :=
    exists_bind_pure_iff _
  rw [ran, exists_groupSum_iff]
  exact ⟨fun loads => ⟨loads, Nat.div_mul_le_self _ _, Nat.le_refl _⟩, fun admits => admits.loads⟩

end SumOfPoly

namespace Deinterleave

/-- What a layout reads of group `g` in the lanes of its input. -/
def Variant.loads (v : Variant) (g : Nat) : List Access :=
  match v with
  | .scalar => []
  | .fourLanes => [⟨v.boundary, 4, 8 * g⟩, ⟨v.boundary, 4, 8 * g + 4⟩]
  | .eightLanes _ => [⟨v.boundary, 8, 16 * g⟩, ⟨v.boundary, 8, 16 * g + 8⟩]

/-- What a layout writes of group `g` in each of its outputs. -/
def Variant.stores (v : Variant) (g : Nat) : List Access :=
  match v with
  | .scalar => []
  | .fourLanes => [⟨v.boundary, 4, 4 * g⟩]
  | .eightLanes _ => [⟨v.boundary, 8, 8 * g⟩]

/-- All that is read and written of the whole groups can be, and the rest behind them is a part of
all three runs. One sample at a time needs neither. -/
structure Variant.Admits {α : Type} (v : Variant) (real imag : Slice α)
    (input : Slice (Complex α)) : Prop where
  loads : ∀ g < input.size / v.group, ∀ a ∈ v.loads g, input.lanes.Admits a
  stores : ∀ g < input.size / v.group, ∀ a ∈ v.stores g, real.Admits a ∧ imag.Admits a
  tail : v ≠ .scalar → let base := input.size / v.group * v.group
    input.HasRange base input.size ∧ real.HasRange base input.size ∧
      imag.HasRange base input.size

theorem Variant.accesses_natural (v : Variant) (g : Nat) :
    ∀ a ∈ v.loads g ++ v.stores g, a.boundary = v.boundary ∧ a.Natural := by
  cases v with
  | scalar => simp [loads, stores]
  | fourLanes => simp [loads, stores, boundary, Access.Natural, laneBytes]
  | eightLanes aligned =>
    cases aligned <;> simp [loads, stores, boundary, Access.Natural, laneBytes]

variable {α : Type}

def SamePlaces (out before : Outputs α) : Prop :=
  out.1.SamePlace before.1 ∧ out.2.SamePlace before.2

section Groups

variable {boundary width g : Nat} {lanes : Slice α} {before out : Outputs α}
  {even odd : Vector α width → Vector α width → Vector α width}

/-- The step of every layout in groups. -/
def groupStep (boundary : Nat) (lanes : Slice α)
    (even odd : Vector α width → Vector α width → Vector α width) (out : Outputs α) (g : Nat) :
    Except AccessFault (Outputs α) := do
  let a ← lanes.load boundary width (2 * width * g)
  let b ← lanes.load boundary width (2 * width * g + width)
  return (← out.1.store boundary (width * g) (even a b),
    ← out.2.store boundary (width * g) (odd a b))

/-- What the step for group `g` accesses of the lanes and of both outputs. -/
@[mk_iff]
structure GroupAdmits (boundary width : Nat) (lanes real imag : Slice α) (g : Nat) : Prop where
  lower : lanes.Admits ⟨boundary, width, 2 * width * g⟩
  upper : lanes.Admits ⟨boundary, width, 2 * width * g + width⟩
  real : real.Admits ⟨boundary, width, width * g⟩
  imag : imag.Admits ⟨boundary, width, width * g⟩

theorem exists_groupStep_iff :
    (∃ after, groupStep boundary lanes even odd out g = .ok after) ↔
      GroupAdmits boundary width lanes out.1 out.2 g := by
  rw [groupAdmits_iff, ← Slice.exists_load_iff, ← Slice.exists_load_iff]
  refine exists_bind_iff fun a _ => exists_bind_iff fun b _ => ?_
  rw [← Slice.exists_store_iff (even a b), ← Slice.exists_store_iff (odd a b)]
  exact exists_bind_iff fun real _ => exists_bind_pure_iff (real, ·)

theorem groupStep_keeps {after : Outputs α} (same : SamePlaces out before)
    (ok : groupStep boundary lanes even odd out g = .ok after) : SamePlaces after before := by
  obtain ⟨a, -, ok⟩ := bind_success ok
  obtain ⟨b, -, ok⟩ := bind_success ok
  obtain ⟨real, stored, ok⟩ := bind_success ok
  obtain ⟨imag, stored', ok⟩ := bind_success ok
  cases ok
  exact ⟨(Slice.SamePlace.of_store stored).trans same.1,
    (Slice.SamePlace.of_store stored').trans same.2⟩

end Groups

section Vectors

variable {v : Variant} {width : Nat} {real imag : Slice α} {input : Slice (Complex α)}

theorem exists_splitTail_iff {before out : Outputs α} (same : SamePlaces out before) (base : Nat) :
    (∃ after, splitTail input base out = .ok after) ↔
      input.size ≤ before.1.size ∧ input.size ≤ before.2.size := by
  rw [splitTail, same.1.size, same.2.size]
  split
  · rename_i room
    exact ⟨fun _ => room, fun _ => ⟨_, rfl⟩⟩
  · rename_i short
    simp [short]

theorem exists_groups_iff (boundary n base : Nat)
    (even odd : Vector α width → Vector α width → Vector α width) :
    (∃ out, ((List.range n).foldlM (groupStep boundary input.lanes even odd) (real, imag) >>=
        splitTail input base) = .ok out) ↔
      (∀ g < n, GroupAdmits boundary width input.lanes real imag g) ∧
        input.size ≤ real.size ∧ input.size ≤ imag.size := by
  -- the outputs change with every group, but not where they lie, on which alone its stores depend
  have start : SamePlaces (real, imag) (real, imag) := ⟨⟨rfl, rfl⟩, ⟨rfl, rfl⟩⟩
  have keeps : ∀ (out : Outputs α) (g : Nat) (after : Outputs α), SamePlaces out (real, imag) →
      groupStep boundary input.lanes even odd out g = .ok after →
        SamePlaces after (real, imag) := fun _ _ _ => groupStep_keeps
  rw [← exists_foldlM_range_iff keeps ?_ start]
  · exact exists_bind_iff fun out looped =>
      exists_splitTail_iff (foldlM_range_keeps keeps start looped) base
  · intro out g same
    rw [exists_groupStep_iff, groupAdmits_iff, groupAdmits_iff, same.1.admits_iff, same.2.admits_iff]

theorem Variant.admits_iff (vector : v ≠ .scalar)
    (loads : ∀ g, v.loads g =
      [⟨v.boundary, width, 2 * width * g⟩, ⟨v.boundary, width, 2 * width * g + width⟩])
    (stores : ∀ g, v.stores g = [⟨v.boundary, width, width * g⟩]) :
    v.Admits real imag input ↔
      (∀ g < input.size / v.group, GroupAdmits v.boundary width input.lanes real imag g) ∧
        input.size ≤ real.size ∧ input.size ≤ imag.size := by
  have ordered : input.size / v.group * v.group ≤ input.size := Nat.div_mul_le_self _ _
  constructor
  · rintro ⟨loaded, stored, tail⟩
    obtain ⟨-, realTail, imagTail⟩ := tail vector
    refine ⟨fun g less => ?_, realTail.inside, imagTail.inside⟩
    have read := loaded g less
    have written := stored g less
    rw [loads, List.forall_mem_cons, List.forall_mem_singleton] at read
    rw [stores, List.forall_mem_singleton] at written
    exact ⟨read.1, read.2, written.1, written.2⟩
  · rintro ⟨groups, realRoom, imagRoom⟩
    refine ⟨fun g less => ?_, fun g less => ?_, fun _ => ?_⟩
    · rw [loads, List.forall_mem_cons, List.forall_mem_singleton]
      exact ⟨(groups g less).lower, (groups g less).upper⟩
    · rw [stores, List.forall_mem_singleton]
      exact ⟨(groups g less).real, (groups g less).imag⟩
    · exact ⟨⟨ordered, Nat.le_refl _⟩, ⟨ordered, realRoom⟩, ⟨ordered, imagRoom⟩⟩

end Vectors

/-- The accesses of a layout are all that its success depends on. -/
theorem exists_run_iff (v : Variant) (real imag : Slice α) (input : Slice (Complex α)) :
    (∃ out, run v real imag input = .ok out) ↔ v.Admits real imag input := by
  cases v with
  | scalar =>
    -- one sample at a time lists nothing, and cannot fail
    constructor
    · intro _
      exact ⟨by simp [Variant.loads], by simp [Variant.stores], fun vector => absurd rfl vector⟩
    · exact fun _ => ⟨_, rfl⟩
  | fourLanes =>
    rw [Variant.admits_iff (by simp) (fun _ => rfl) (fun _ => rfl)]
    exact exists_groups_iff _ _ _ evenLanes oddLanes
  | eightLanes aligned =>
    rw [Variant.admits_iff (by simp) (fun _ => rfl) (fun _ => rfl)]
    exact exists_groups_iff _ _ _ (fun a b => evenLanesByHalf (lowerHalves a b) (upperHalves a b))
      fun a b => oddLanesByHalf (lowerHalves a b) (upperHalves a b)

end Deinterleave

namespace Catalog

theorem sumOfPoly_kernels :
    ∀ i ∈ sumOfPoly.implementations, ∃ v, i.kernel = .sumOfPoly v ∧ v.boundary = i.alignment := by
  simp only [sumOfPoly, List.forall_mem_cons, List.not_mem_nil, false_imp_iff, implies_true, and_true]
  exact ⟨⟨_, rfl, rfl⟩, ⟨_, rfl, rfl⟩, ⟨_, rfl, rfl⟩, ⟨_, rfl, rfl⟩, ⟨_, rfl, rfl⟩, ⟨_, rfl, rfl⟩⟩

theorem deinterleave_kernels :
    ∀ i ∈ deinterleave.implementations, ∃ v, i.kernel = .deinterleave v ∧ v.boundary = i.alignment := by
  simp only [deinterleave, List.forall_mem_cons, List.not_mem_nil, false_imp_iff, implies_true,
    and_true]
  exact ⟨⟨_, rfl, rfl⟩, ⟨_, rfl, rfl⟩, ⟨_, rfl, rfl⟩, ⟨_, rfl, rfl⟩⟩

/-- No access of a built-in implementation fails on buffers of any length that start on the boundary
which it declares, where the outputs can hold the input; that boundary is what its accesses need,
the width of their vectors or none. Whatever the buffers, a kernel gives a result exactly if none
of its accesses fails. -/
theorem accesses_succeed (α : Type) [Arithmetic α] :
    (∀ i ∈ sumOfPoly.implementations, ∃ v, i.kernel = .sumOfPoly v ∧
      (∀ g, ∀ a ∈ v.loads g, a.boundary = i.alignment ∧ a.Natural) ∧
      ∀ input : Slice α, i.alignment ∣ input.address →
        v.Admits input ∧ ∀ c cutoff, ∃ sum, SumOfPoly.run v input c cutoff = .ok sum) ∧
    (∀ i ∈ deinterleave.implementations, ∃ v, i.kernel = .deinterleave v ∧
      (∀ g, ∀ a ∈ v.loads g ++ v.stores g, a.boundary = i.alignment ∧ a.Natural) ∧
      ∀ (real imag : Slice α) (input : Slice (Complex α)),
        i.alignment ∣ real.address → i.alignment ∣ imag.address → i.alignment ∣ input.address →
        input.size ≤ real.size → input.size ≤ imag.size →
          v.Admits real imag input ∧ ∃ out, Deinterleave.run v real imag input = .ok out) ∧
    (∀ (v : SumOfPoly.Variant) (input : Slice α) (c : Coefficients α) (cutoff : α),
      (∃ sum, SumOfPoly.run v input c cutoff = .ok sum) ↔ v.Admits input) ∧
    ∀ (v : Deinterleave.Variant) (real imag : Slice α) (input : Slice (Complex α)),
      (∃ out, Deinterleave.run v real imag input = .ok out) ↔ v.Admits real imag input := by
  refine ⟨fun i member => ?_, fun i member => ?_, SumOfPoly.exists_run_iff,
    Deinterleave.exists_run_iff⟩
  · obtain ⟨v, kernel, boundary⟩ := sumOfPoly_kernels i member
    rw [← boundary]
    refine ⟨v, kernel, v.loads_natural, fun input aligned => ?_⟩
    have ran := SumOfPoly.exists_run (v := v) (s := input) fun _ => aligned
    exact ⟨(SumOfPoly.exists_run_iff v input ⟨0, 0, 0, 0, 0⟩ 0).mp (ran _ _), ran⟩
  · obtain ⟨v, kernel, boundary⟩ := deinterleave_kernels i member
    rw [← boundary]
    refine ⟨v, kernel, v.accesses_natural, ?_⟩
    intro real imag input realStart imagStart start realRoom imagRoom
    have accepts : v.Accepts input (real, imag) :=
      ⟨realRoom, imagRoom, fun _ => ⟨start, realStart, imagStart⟩⟩
    obtain ⟨out, ran, -⟩ := Deinterleave.run_splitUpTo accepts
    exact ⟨(Deinterleave.exists_run_iff v real imag input).mp ⟨out, ran⟩, out, ran⟩

/-- A group of eight values and five more on thirty-two bytes; three groups of four samples and one
more on sixteen, with room to spare in one of the outputs. -/
theorem accesses_succeed_of_thirteen :
    let values : Slice Single := ⟨320, .replicate 13 0⟩
    let samples : Slice (Complex Single) := ⟨48, .replicate 13 ⟨0, 0⟩⟩
    let real : Slice Single := ⟨176, .replicate 15 0⟩
    let imag : Slice Single := ⟨240, .replicate 13 0⟩
    (32 ∣ values.address ∧ (SumOfPoly.Variant.eightLanesFused true).Admits values) ∧
      16 ∣ samples.address ∧ 16 ∣ real.address ∧ 16 ∣ imag.address ∧
      samples.size ≤ real.size ∧ samples.size ≤ imag.size ∧
      Deinterleave.Variant.fourLanes.Admits real imag samples ∧
      ∃ out, Deinterleave.run .fourLanes real imag samples = .ok out := by
  intro values samples real imag
  obtain ⟨sums, splits, -⟩ := accesses_succeed Single
  obtain ⟨v, kernel, -, admits⟩ := sums sumOfPoly.implementations[0] (List.getElem_mem _)
  obtain ⟨w, kernel', -, admits'⟩ := splits deinterleave.implementations[2] (List.getElem_mem _)
  obtain rfl : .eightLanesFused true = v := Kernel.sumOfPoly.inj kernel
  obtain rfl : .fourLanes = w := Kernel.deinterleave.inj kernel'
  have start : 32 ∣ values.address := by decide
  obtain ⟨realStart, imagStart, samplesStart⟩ :
      16 ∣ real.address ∧ 16 ∣ imag.address ∧ 16 ∣ samples.address := by decide
  obtain ⟨realRoom, imagRoom⟩ : samples.size ≤ real.size ∧ samples.size ≤ imag.size := by decide
  obtain ⟨admitted, ran⟩ :=
    admits' real imag samples realStart imagStart samplesStart realRoom imagRoom
  exact ⟨⟨start, (admits values start).1⟩, samplesStart, realStart, imagStart, realRoom, imagRoom,
    admitted, ran⟩

end Catalog
end SimdDispatch
