import SimdDispatch.Proofs.Registry
import SimdDispatch.Report.Profile

/-!
Profiles as lists of runs. One that succeeds has run every implementation of every bound primitive,
in order, so all that its report leaves open is how long each took and what was found about it.
-/
namespace SimdDispatch.Profile

theorem compareWith_eq_ok_iff {α : Type} {reference : Except CallFailure α}
    {named : String → Except CallFailure α} {judge : α → α → Comparison} {names : List String}
    {found : List Comparison} :
    compareWith reference named judge names = .ok found ↔
      ∃ expected, reference = .ok expected ∧ List.Forall₂
        (fun name c => ∃ value, named name = .ok value ∧ c = judge value expected) names found := by
  have judged (expected : α) (name : String) (c : Comparison) :
      (named name >>= fun value => pure (judge value expected)) = .ok c ↔
        ∃ value, named name = .ok value ∧ c = judge value expected := by
    constructor
    · intro ok
      obtain ⟨value, ran, last⟩ := bind_success ok
      cases last
      exact ⟨value, ran, rfl⟩
    · rintro ⟨value, ran, rfl⟩
      rw [ran]
      rfl
  unfold compareWith
  constructor
  · intro ok
    obtain ⟨expected, ran, ok⟩ := bind_success ok
    exact ⟨expected, ran, (mapM_eq_ok_iff.mp ok).imp fun name c => (judged expected name c).mp⟩
  · rintro ⟨expected, ran, related⟩
    rw [bind_of_success ran]
    exact mapM_eq_ok_iff.mpr (related.imp fun name c => (judged expected name c).mpr)

theorem compare_length {place : Placement} {r : Registry} {shape : Shape} {names : List String}
    {points : Nat} {found : List Comparison} (ok : compare place r shape names points = .ok found) :
    names.length = found.length := by
  unfold compare at ok
  split at ok
  · cases shape with
    | sumOfPoly =>
      obtain ⟨_, -, related⟩ := compareWith_eq_ok_iff.mp ok
      exact related.length_eq
    | deinterleave =>
      obtain ⟨_, -, related⟩ := compareWith_eq_ok_iff.mp ok
      exact related.length_eq
  · cases ok

theorem refusing_eq_ok_iff {α : Type} {x : Except Error α} {a : α} :
    Registry.refusing x = .ok a ↔ x = .ok a := by
  cases x <;> simp [Registry.refusing]

theorem runs_eq_ok_iff {place : String → Placement} {r : Registry} {workload : Workload}
    {elapsed : String → String → Nat} {entry : String × Binding}
    {test : String × List (Implementation × Nat × Comparison)} :
    runs place r workload elapsed entry = .ok test ↔
      ∃ implementations found, r.eligible entry.1 = .ok implementations ∧
        compare (place entry.1) r entry.2.aligned.shape (implementations.map (·.name))
          workload.points = .ok found ∧
        test = (entry.1, (implementations.zip found).map fun (i, c) =>
          (i, elapsed entry.1 i.name, c)) := by
  constructor
  · intro ok
    obtain ⟨implementations, eligible, ok⟩ := bind_success ok
    obtain ⟨found, compared, last⟩ := bind_success ok
    cases last
    exact ⟨implementations, found, refusing_eq_ok_iff.mp eligible, compared, rfl⟩
  · rintro ⟨implementations, found, eligible, compared, rfl⟩
    exact (bind_of_success (refusing_eq_ok_iff.mpr eligible) _).trans (bind_of_success compared _)

theorem profileAt_eq_ok_iff {place : String → Placement} {r : Registry} {workload : Workload}
    {elapsed : String → String → Nat} {report : Report} :
    r.profileAt place workload elapsed = .ok report ↔
      ∃ tests, List.Forall₂ (fun entry test =>
          runs place r ⟨workload.points, max workload.iterations 1⟩ elapsed entry = .ok test)
          r.bindings tests ∧
        report = Profile.report r ⟨workload.points, max workload.iterations 1⟩ tests := by
  constructor
  · intro ok
    obtain ⟨tests, ran, last⟩ := bind_success ok
    cases last
    exact ⟨tests, mapM_eq_ok_iff.mp ran, rfl⟩
  · rintro ⟨tests, ran, rfl⟩
    exact bind_of_success (mapM_eq_ok_iff.mpr ran) _

/-- Some measurements of every implementation that a registry has of its primitives. -/
def Measured (r : Registry) (tests : List (String × List (Implementation × Nat × Comparison))) :
    Prop :=
  List.Forall₂ (fun name test => test.1 = name ∧ r.eligible name = .ok (test.2.map (·.1)))
    (r.bindings.map (·.1)) tests

theorem measured_of_profileAt {place : String → Placement} {r : Registry} {workload : Workload}
    {elapsed : String → String → Nat} {report : Report}
    (ok : r.profileAt place workload elapsed = .ok report) :
    ∃ tests, Measured r tests ∧
      report = Profile.report r ⟨workload.points, max workload.iterations 1⟩ tests := by
  obtain ⟨tests, ran, rfl⟩ := profileAt_eq_ok_iff.mp ok
  refine ⟨tests, ?_, rfl⟩
  rw [Measured, List.forall₂_map_left_iff]
  refine ran.imp fun entry test ok => ?_
  obtain ⟨implementations, found, eligible, compared, rfl⟩ := runs_eq_ok_iff.mp ok
  have length := compare_length compared
  rw [List.length_map] at length
  have all : ((implementations.zip found).map fun (i, c) =>
      (i, elapsed entry.1 i.name, c)).map (·.1) = implementations := by
    rw [List.map_map]
    exact List.map_fst_zip (Nat.le_of_eq length)
  rw [all]
  exact ⟨rfl, eligible⟩

end SimdDispatch.Profile
