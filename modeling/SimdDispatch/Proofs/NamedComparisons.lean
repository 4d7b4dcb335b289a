import SimdDispatch.Proofs.NamedCalls
import SimdDispatch.Proofs.Profile

/-!
Comparisons by name. The reference and the implementations to compare are looked up in the primitive
named for their shape; on buffers that start on their boundaries none of their kernels can fail.
-/
namespace SimdDispatch.Profile

/-- The starts of the buffers that implementations of a shape are run on. -/
def Placement.starts (place : Placement) : Shape → List Nat
  | .sumOfPoly => [place.input]
  | .deinterleave => [place.input, place.real, place.imag]

def Placement.referenceStarts (place : Placement) : Shape → List Nat
  | .sumOfPoly => [place.input]
  | .deinterleave => [place.input, place.referenceReal, place.referenceImag]

def Sums (input : Start) (points : Nat) (i : Implementation) (value : Single) : Prop :=
  ∃ v, i.kernel = .sumOfPoly v ∧
    SumOfPoly.run v (sumInput input points) coefficients cutoff = .ok value

def Splits (input real imag : Start) (points : Nat) (i : Implementation)
    (out : Slice Single × Slice Single) : Prop :=
  ∃ v, i.kernel = .deinterleave v ∧ Deinterleave.run v (splitOutput real points)
    (splitOutput imag points) (splitInput input points) = .ok out

/-- What is found about an implementation by running it and a reference on the same input. -/
inductive Compared (place : Placement) (points : Nat) (i reference : Implementation) :
    Shape → Comparison → Prop
  | sums (value expected : Single) (ran : Sums place.input points i value)
      (referenceRan : Sums place.input points reference expected) :
      Compared place points i reference .sumOfPoly (.ofSums value expected)
  | splits (out expected : Slice Single × Slice Single)
      (ran : Splits place.input place.real place.imag points i out)
      (referenceRan :
        Splits place.input place.referenceReal place.referenceImag points reference expected) :
      Compared place points i reference .deinterleave (.ofSplits out expected)

/-- A name stands for an implementation of a primitive, and buffers of so many points that start at
these addresses start on its boundary. -/
structure Callable (host : Primitive) (points : Nat) (starts : List Nat) (name : String)
    (i : Implementation) : Prop where
  listed : i ∈ host.implementations
  named : i.name = name
  aligned : points ≠ 0 → ∀ a ∈ starts, i.alignment ∣ a

theorem Callable.unique {host : Primitive} (wellFormed : host.WellFormed) {points : Nat}
    {starts : List Nat} {name : String} {i j : Implementation}
    (left : Callable host points starts name i) (listed : j ∈ host.implementations)
    (named : j.name = name) : i = j :=
  List.inj_on_of_nodup_map wellFormed.distinct left.listed listed (left.named.trans named.symm)

theorem compared_sums_iff {place : Placement} {points : Nat} {i reference : Implementation}
    {c : Comparison} :
    Compared place points i reference .sumOfPoly c ↔
      ∃ value expected, Sums place.input points i value ∧
        Sums place.input points reference expected ∧ c = .ofSums value expected := by
  constructor
  · intro compared
    cases compared with
    | sums value expected ran referenceRan => exact ⟨value, expected, ran, referenceRan, rfl⟩
  · rintro ⟨value, expected, ran, referenceRan, rfl⟩
    exact .sums value expected ran referenceRan

theorem compared_splits_iff {place : Placement} {points : Nat} {i reference : Implementation}
    {c : Comparison} :
    Compared place points i reference .deinterleave c ↔
      ∃ out expected, Splits place.input place.real place.imag points i out ∧
        Splits place.input place.referenceReal place.referenceImag points reference expected ∧
        c = .ofSplits out expected := by
  constructor
  · intro compared
    cases compared with
    | splits out expected ran referenceRan => exact ⟨out, expected, ran, referenceRan, rfl⟩
  · rintro ⟨out, expected, ran, referenceRan, rfl⟩
    exact .splits out expected ran referenceRan

@[simp] theorem size_sumInput (start : Start) (points : Nat) :
    (sumInput start points).size = points := by
  simp [sumInput, placed, Slice.size]

@[simp] theorem size_splitInput (start : Start) (points : Nat) :
    (splitInput start points).size = points := by
  simp [splitInput, placed, Slice.size]

@[simp] theorem size_splitOutput (start : Start) (points : Nat) :
    (splitOutput start points).size = points := by
  simp [splitOutput, placed, Slice.size]

theorem Sums.unique {input : Start} {points : Nat} {i : Implementation} {value value' : Single}
    (first : Sums input points i value) (second : Sums input points i value') : value = value' := by
  obtain ⟨v, kernel, ran⟩ := first
  obtain ⟨v', kernel', ran'⟩ := second
  rw [kernel] at kernel'
  cases kernel'
  exact Except.ok.inj (ran.symm.trans ran')

theorem Splits.unique {input real imag : Start} {points : Nat} {i : Implementation}
    {out out' : Slice Single × Slice Single} (first : Splits input real imag points i out)
    (second : Splits input real imag points i out') : out = out' := by
  obtain ⟨v, kernel, ran⟩ := first
  obtain ⟨v', kernel', ran'⟩ := second
  rw [kernel] at kernel'
  cases kernel'
  exact Except.ok.inj (ran.symm.trans ran')

/-- Where the names of a primitive are run and any run of the reference gives the same, a comparison
succeeds if all of them are found on suitable buffers. -/
theorem compareWith_eq_ok_iff_of_runs {α : Type} {reference : Except CallFailure α}
    {named : String → Except CallFailure α} {judge : α → α → Comparison} {host : Primitive}
    {points : Nat} {starts referenceStarts : List Nat} {Ran ReferenceRan : Implementation → α → Prop}
    (runs : ∀ name value, named name = .ok value ↔
      ∃ i, Callable host points starts name i ∧ Ran i value)
    (referenceRuns : ∀ value, reference = .ok value ↔
      ∃ i, Callable host points referenceStarts "generic" i ∧ ReferenceRan i value)
    (total : ∀ i, Callable host points referenceStarts "generic" i → ∃ value, ReferenceRan i value)
    (unique : ∀ i value value', ReferenceRan i value → ReferenceRan i value' → value = value')
    {names : List String} {found : List Comparison} :
    compareWith reference named judge names = .ok found ↔
      ∃ base, Callable host points referenceStarts "generic" base ∧
        List.Forall₂ (fun name c => ∃ i, Callable host points starts name i ∧
          ∃ value expected, Ran i value ∧ ReferenceRan base expected ∧ c = judge value expected)
          names found := by
  rw [compareWith_eq_ok_iff]
  constructor
  · rintro ⟨expected, ok, related⟩
    obtain ⟨base, callable, ran⟩ := (referenceRuns expected).mp ok
    refine ⟨base, callable, related.imp fun name c ⟨value, called, judged⟩ => ?_⟩
    obtain ⟨i, held, result⟩ := (runs name value).mp called
    exact ⟨i, held, value, expected, result, ran, judged⟩
  · rintro ⟨base, callable, related⟩
    obtain ⟨expected, ran⟩ := total base callable
    refine ⟨expected, (referenceRuns expected).mpr ⟨base, callable, ran⟩, related.imp ?_⟩
    rintro name c ⟨i, held, value, expected', result, ran', rfl⟩
    -- the reference is run once, and every implementation is judged by what that gave
    rw [unique base _ _ ran' ran]
    exact ⟨value, (runs name value).mpr ⟨i, held, result⟩, rfl⟩

section Sums

variable {r : Registry} {host : Primitive} (hosts : r.Hosts .sumOfPoly host) {points : Nat}
include hosts

theorem sumWith_eq_ok_iff (input : Start) (name : String) (value : Single) :
    r.sumWith name (sumInput input points) coefficients cutoff = .ok value ↔
      ∃ i, Callable host points [input.val] name i ∧ Sums input points i value := by
  rw [hosts.sumWith_eq_ok_iff, size_sumInput]
  constructor
  · rintro ⟨i, listed, named, aligned, ran⟩
    exact ⟨i, ⟨listed, named, fun occupied => List.forall_mem_singleton.mpr (aligned occupied)⟩, ran⟩
  · rintro ⟨i, ⟨listed, named, aligned⟩, ran⟩
    exact ⟨i, listed, named, fun occupied => List.forall_mem_singleton.mp (aligned occupied), ran⟩

theorem exists_sum {input : Start} {name : String} {i : Implementation}
    (callable : Callable host points [input.val] name i) : ∃ value, Sums input points i value := by
  have shaped := (hosts.wellFormed.entries i callable.listed).shaped.trans hosts.shaped
  obtain ⟨v, kernel, sufficient⟩ := Implementation.exists_sumOfPoly shaped
  have aligned : (sumInput input points).size ≠ 0 →
      v.boundary ∣ (sumInput input points).address := by
    intro occupied
    rw [size_sumInput] at occupied
    exact sufficient.trans (callable.aligned occupied _ List.mem_cons_self)
  obtain ⟨value, ran⟩ := SumOfPoly.exists_run aligned coefficients cutoff
  exact ⟨value, v, kernel, ran⟩

end Sums

section Splits

variable {r : Registry} {host : Primitive} (hosts : r.Hosts .deinterleave host) {points : Nat}
include hosts

theorem splitWith_eq_ok_iff (input real imag : Start) (name : String)
    (out : Slice Single × Slice Single) :
    r.splitWith name (splitOutput real points) (splitOutput imag points) (splitInput input points) =
        .ok out ↔
      ∃ i, Callable host points [input.val, real.val, imag.val] name i ∧
        Splits input real imag points i out := by
  rw [hosts.splitWith_eq_ok_iff, size_splitInput, size_splitOutput, size_splitOutput]
  constructor
  · rintro ⟨i, listed, named, -, -, aligned, ran⟩
    exact ⟨i, ⟨listed, named, aligned⟩, ran⟩
  · rintro ⟨i, ⟨listed, named, aligned⟩, ran⟩
    exact ⟨i, listed, named, Nat.le_refl _, Nat.le_refl _, aligned, ran⟩

theorem exists_split {input real imag : Start} {name : String} {i : Implementation}
    (callable : Callable host points [input.val, real.val, imag.val] name i) :
    ∃ out, Splits input real imag points i out := by
  have shaped := (hosts.wellFormed.entries i callable.listed).shaped.trans hosts.shaped
  obtain ⟨v, kernel, sufficient⟩ := Implementation.exists_deinterleave shaped
  have accepts : v.Accepts (splitInput input points)
      (splitOutput real points, splitOutput imag points) := by
    refine ⟨by simp, by simp, fun occupied => ?_⟩
    rw [size_splitInput] at occupied
    have starts := callable.aligned occupied
    exact ⟨sufficient.trans (starts input (by simp)), sufficient.trans (starts real (by simp)),
      sufficient.trans (starts imag (by simp))⟩
  obtain ⟨out, ran, -⟩ := Deinterleave.run_splitUpTo accepts
  exact ⟨out, v, kernel, ran⟩

end Splits

section Compare

variable {r : Registry} {shape : Shape} {host : Primitive} (hosts : r.Hosts shape host)
  {place : Placement} {points : Nat}
include hosts

/-- The reference and every name must be found in the one primitive that hosts the shape. -/
theorem compare_eq_ok_iff {names : List String} {found : List Comparison} :
    compare place r shape names points = .ok found ↔
      fits shape points = true ∧
        ∃ base, Callable host points (place.referenceStarts shape) "generic" base ∧
          List.Forall₂ (fun name c => ∃ i, Callable host points (place.starts shape) name i ∧
            Compared place points i base shape c) names found := by
  unfold compare
  by_cases room : fits shape points = true
  · simp only [room, if_true, true_and]
    cases shape with
    | sumOfPoly =>
      refine (compareWith_eq_ok_iff_of_runs (sumWith_eq_ok_iff hosts place.input)
        (sumWith_eq_ok_iff hosts place.input "generic") (fun i => exists_sum hosts)
        fun i _ _ => Sums.unique).trans ?_
      simp only [compared_sums_iff]
      rfl
    | deinterleave =>
      refine (compareWith_eq_ok_iff_of_runs
        (splitWith_eq_ok_iff hosts place.input place.real place.imag)
        (splitWith_eq_ok_iff hosts place.input place.referenceReal place.referenceImag "generic")
        (fun i => exists_split hosts) fun i _ _ => Splits.unique).trans ?_
      simp only [compared_splits_iff]
      rfl
  · simp [room]

theorem exists_compared {i base : Implementation} {name name' : String}
    (callable : Callable host points (place.starts shape) name i)
    (reference : Callable host points (place.referenceStarts shape) name' base) :
    ∃ c, Compared place points i base shape c := by
  cases shape with
  | sumOfPoly =>
    obtain ⟨value, ran⟩ := exists_sum hosts callable
    obtain ⟨expected, referenceRan⟩ := exists_sum hosts reference
    exact ⟨_, .sums value expected ran referenceRan⟩
  | deinterleave =>
    obtain ⟨out, ran⟩ := exists_split hosts callable
    obtain ⟨expected, referenceRan⟩ := exists_split hosts reference
    exact ⟨_, .splits out expected ran referenceRan⟩

theorem exists_compare_iff {names : List String} :
    (∃ found, compare place r shape names points = .ok found) ↔
      fits shape points = true ∧
        (∃ base, Callable host points (place.referenceStarts shape) "generic" base) ∧
        ∀ name ∈ names, ∃ i, Callable host points (place.starts shape) name i := by
  constructor
  · rintro ⟨found, ok⟩
    obtain ⟨room, base, reference, related⟩ := (compare_eq_ok_iff hosts).mp ok
    refine ⟨room, ⟨base, reference⟩, fun name listed => ?_⟩
    obtain ⟨c, -, i, callable, -⟩ := forall₂_left related listed
    exact ⟨i, callable⟩
  · rintro ⟨room, ⟨base, reference⟩, each⟩
    have compares : ∀ name ∈ names, ∃ c, ∃ i, Callable host points (place.starts shape) name i ∧
        Compared place points i base shape c := by
      intro name listed
      obtain ⟨i, callable⟩ := each name listed
      obtain ⟨c, compared⟩ := exists_compared hosts callable reference
      exact ⟨c, i, callable, compared⟩
    obtain ⟨found, related⟩ := exists_forall₂_iff.mpr compares
    exact ⟨found, (compare_eq_ok_iff hosts).mpr ⟨room, base, reference, related⟩⟩

end Compare

end SimdDispatch.Profile
