import SimdDispatch.Proofs.ProfiledKernels
import SimdDispatch.Proofs.Winners

/-!
Winners that their slots can hold. The winner for calls on any address is chosen among what needs no
boundary; the one for aligned calls is chosen among all that passed, whatever boundary the machine
promises. So the tables whose winners always fit are those that could not give any other.
-/
namespace SimdDispatch

/-- One of the implementations that a registry has of a primitive has this name, and can be bound to
the slot of the contract. -/
def Registry.CanBind (r : Registry) (primitive : String) (contract : Contract) (name : String) :
    Prop :=
  ∃ implementations, r.eligible primitive = .ok implementations ∧ ∃ i ∈ implementations,
    i.name = name ∧ i.isEligible r.detected (r.machine.boundary contract) = true

theorem Fastest.mem_or {results : List (String × Timing)} {accept : Timing → Bool} {name : String}
    (won : Fastest results accept name) :
    (∃ t, (name, t) ∈ results ∧ t.passed = true ∧ accept t = true) ∨
      name = "generic" ∧ ∀ r ∈ results, r.2.passed = true → accept r.2 = false := by
  cases won with
  | winner before after name t split passed accepted =>
    exact .inl ⟨t, by rw [split]; simp, passed, accepted⟩
  | portable nobody => exact .inr ⟨rfl, nobody⟩

theorem Fastest.of_tie {first : String × Timing} {rest : List (String × Timing)} {name : String}
    (won : Fastest (first :: rest) (fun _ => true) name) (passed : first.2.passed = true)
    (tied : ∀ r ∈ rest, r.2.perCallNs = first.2.perCallNs) : name = first.1 := by
  cases won with
  | portable nobody => cases nobody first List.mem_cons_self passed
  | winner before after name t split _ _ earlier =>
    cases before with
    | nil => exact congrArg Prod.fst (List.cons.inj split).1.symm
    | cons r before =>
      obtain ⟨rfl, others⟩ := List.cons.inj split
      have faster := Timing.faster_iff.mp (earlier first List.mem_cons_self passed rfl)
      rw [tied (name, t) (by rw [others]; simp)] at faster
      exact absurd faster (Int.lt_irrefl _)

namespace Profile

theorem fastest_of_test {r : Registry} {workload : Workload}
    {tests : List (String × List (Implementation × Nat × Comparison))} {test : PrimitiveReport}
    (reported : test ∈ (Profile.report r workload tests).tests) :
    Fastest test.results (fun _ => true) test.bestAligned ∧
      Fastest test.results (·.alignment ≤ 1) test.bestUnaligned := by
  obtain ⟨measurement, -, rfl⟩ := List.mem_map.mp reported
  exact ⟨fastest_spec _ _, fastest_spec _ _⟩

section Built

variable {cpu requested : CapabilitySet} {tables : List Table} {config : Config} {r : Registry}
  (built : Registry.Built cpu tables requested config r)
include built

theorem canBind_iff {p : Primitive} (member : p ∈ r.machine.primitives) {contract : Contract}
    {name : String} :
    r.CanBind p.name contract name ↔
      ∃ i ∈ p.implementations, i.name = name ∧ i.alignment ≤ r.machine.boundary contract := by
  have runs := (Resolution.resolved_of_ok built.resolved).chosen.runs
  have eligible {i : Implementation} (listed : i ∈ p.implementations) :
      i.isEligible r.detected (r.machine.boundary contract) =
        decide (i.alignment ≤ r.machine.boundary contract) :=
    Resolution.isEligible_of_runs member runs listed _
  unfold Registry.CanBind
  rw [Registry.eligible_of_mem member]
  constructor
  · rintro ⟨_, same, i, listed, named, held⟩
    cases same
    rw [eligible listed, decide_eq_true_eq] at held
    exact ⟨i, listed, named, held⟩
  · rintro ⟨i, listed, named, fits⟩
    refine ⟨_, rfl, i, listed, named, ?_⟩
    rw [eligible listed, decide_eq_true_eq]
    exact fits

/-- A test of a report is about one primitive of the machine, and has a result for each of its
implementations. -/
theorem exists_of_test {workload : Workload}
    {tests : List (String × List (Implementation × Nat × Comparison))} (measured : Measured r tests)
    {test : PrimitiveReport} (reported : test ∈ (Profile.report r workload tests).tests) :
    ∃ p ∈ r.machine.primitives, ∃ runs : List (Implementation × Nat × Comparison),
      runs.map (·.1) = p.implementations ∧
        test = PrimitiveReport.of p.name (runs.map fun (i, elapsed, c) =>
          (i.name, Timing.of i elapsed workload.iterations c)) := by
  obtain ⟨⟨_, runs⟩, listed, rfl⟩ := List.mem_map.mp reported
  obtain ⟨name, present, rfl, eligible⟩ := forall₂_right measured listed
  have names : r.bindings.map (·.1) = r.machine.primitives.map (·.name) :=
    (Resolution.resolved_of_ok built.resolved).names
  rw [names] at present
  obtain ⟨p, member, named⟩ := List.mem_map.mp present
  dsimp only at named eligible ⊢
  rw [← named, Registry.eligible_of_mem member] at eligible
  exact ⟨p, member, runs, (Except.ok.inj eligible).symm, by rw [named]⟩

theorem results_of_test {workload : Workload}
    {tests : List (String × List (Implementation × Nat × Comparison))} (measured : Measured r tests)
    {test : PrimitiveReport} (reported : test ∈ (Profile.report r workload tests).tests) :
    ∃ implementations, r.eligible test.name = .ok implementations ∧
      test.results.map (·.1) = implementations.map (·.name) := by
  obtain ⟨p, member, runs, all, rfl⟩ := exists_of_test built measured reported
  refine ⟨p.implementations, Registry.eligible_of_mem member, ?_⟩
  rw [← all, PrimitiveReport.of, List.map_map, List.map_map]
  rfl

/-- The winner for calls on any address fits, unless nothing that needs no boundary passed. -/
theorem canBind_bestUnaligned {workload : Workload}
    {tests : List (String × List (Implementation × Nat × Comparison))} (measured : Measured r tests)
    {test : PrimitiveReport} (reported : test ∈ (Profile.report r workload tests).tests) :
    r.CanBind test.name .unaligned test.bestUnaligned ∨
      test.bestUnaligned = "generic" ∧
        ∀ result ∈ test.results, result.2.passed = true → 1 < result.2.alignment := by
  have won := (fastest_of_test reported).2.mem_or
  obtain ⟨p, member, runs, all, rfl⟩ := exists_of_test built measured reported
  rcases won with ⟨t, listed, -, anywhere⟩ | ⟨none, nobody⟩
  · obtain ⟨⟨i, elapsed, c⟩, ran, same⟩ := List.mem_map.mp listed
    have own : i ∈ p.implementations := all ▸ List.mem_map_of_mem ran
    have small : i.alignment ≤ 1 := by
      rw [← (Prod.mk.inj same).2] at anywhere
      exact of_decide_eq_true anywhere
    exact .inl ((canBind_iff built member).mpr ⟨i, own, (Prod.mk.inj same).1, small⟩)
  · refine .inr ⟨none, fun result listed passed => ?_⟩
    exact Nat.lt_of_not_le (of_decide_eq_false (nobody result listed passed))

end Built

section Passing

/-- Measurements in which the implementations pass that are asked for, all equally fast. -/
def passing (r : Registry) (passes : Implementation → Bool) :
    List (String × List (Implementation × Nat × Comparison)) :=
  r.machine.primitives.map fun p => (p.name, p.implementations.map fun i => (i, 0, ⟨0, passes i⟩))

/-- The test of one primitive in these measurements. -/
def passingTest (p : Primitive) (workload : Workload) (passes : Implementation → Bool) :
    PrimitiveReport :=
  PrimitiveReport.of p.name (p.implementations.map fun i =>
    (i.name, Timing.of i 0 workload.iterations ⟨0, passes i⟩))

variable {r : Registry} {p : Primitive} {workload : Workload} {passes : Implementation → Bool}

theorem passingTest_mem (member : p ∈ r.machine.primitives) :
    passingTest p workload passes ∈ (Profile.report r workload (passing r passes)).tests := by
  simp only [Profile.report, passing, List.map_map]
  refine List.mem_map.mpr ⟨p, member, ?_⟩
  simp only [Function.comp_apply, List.map_map]
  rfl

theorem measured_passing {cpu requested : CapabilitySet} {tables : List Table} {config : Config}
    (built : Registry.Built cpu tables requested config r) (passes : Implementation → Bool) :
    Measured r (passing r passes) := by
  have names : r.bindings.map (·.1) = r.machine.primitives.map (·.name) :=
    (Resolution.resolved_of_ok built.resolved).names
  rw [Measured, names, passing, List.forall₂_map_left_iff, List.forall₂_map_right_iff,
    List.forall₂_same]
  intro p member
  rw [Registry.eligible_of_mem member, List.map_map]
  exact ⟨rfl, congrArg Except.ok (List.map_id _).symm⟩

theorem passes_or_of_fastest {accept : Timing → Bool} {name : String}
    (won : Fastest (passingTest p workload passes).results accept name) :
    (∃ i ∈ p.implementations, i.name = name ∧ passes i = true) ∨ name = "generic" ∧
      ∀ i ∈ p.implementations, passes i = true →
        accept (Timing.of i 0 workload.iterations ⟨0, passes i⟩) = false := by
  rcases won.mem_or with ⟨t, listed, passed, -⟩ | ⟨none, nobody⟩
  · obtain ⟨i, own, same⟩ := List.mem_map.mp listed
    cases same
    exact .inl ⟨i, own, rfl, passed⟩
  · exact .inr ⟨none, fun i own asked => nobody _ (List.mem_map_of_mem own) asked⟩

theorem best_of_none_passing (p : Primitive) (workload : Workload) (contract : Contract) :
    (passingTest p workload fun _ => false).best contract = "generic" := by
  have portable {accept : Timing → Bool} {name : String}
      (won : Fastest (passingTest p workload fun _ => false).results accept name) :
      name = "generic" := by
    rcases passes_or_of_fastest won with ⟨_, -, -, passed⟩ | ⟨none, -⟩
    · cases passed
    · exact none
  cases contract with
  | aligned => exact portable (fastest_spec (passingTest p workload _).results fun _ => true)
  | unaligned =>
    exact portable (fastest_spec (passingTest p workload _).results fun t => t.alignment ≤ 1)

theorem bestAligned_of_one_passing {i : Implementation} (listed : i ∈ p.implementations)
    (workload : Workload) : (passingTest p workload (·.name == i.name)).bestAligned = i.name := by
  rcases passes_or_of_fastest (fastest_spec (passingTest p workload (·.name == i.name)).results
    fun _ => true) with ⟨j, -, named, passed⟩ | ⟨-, nobody⟩
  · exact named.symm.trans (beq_iff_eq.mp passed)
  · cases nobody i listed (beq_self_eq_true _)

end Passing

/-- Winners fit whatever is measured only if no implementation needs more than the table promises,
and the one recommended where none passed is there. -/
theorem holdsWinners_of_canBind {cpu requested : CapabilitySet} {tables : List Table}
    {config : Config} {r : Registry} (built : Registry.Built cpu tables requested config r)
    (fit : ∀ workload tests, Measured r tests →
      ∀ test ∈ (Profile.report r workload tests).tests, ∀ contract,
        r.CanBind test.name contract (test.best contract)) : r.machine.HoldsWinners := by
  intro p member
  have bound (passes : Implementation → Bool) (contract : Contract) :
      ∃ i ∈ p.implementations, i.name = (passingTest p .default passes).best contract ∧
        i.alignment ≤ r.machine.boundary contract :=
    (canBind_iff built member).mp
      (fit .default _ (measured_passing built passes) _ (passingTest_mem member) contract)
  constructor
  · -- where nothing passes, the portable name is recommended for both contracts
    obtain ⟨i, listed, named, small⟩ := bound (fun _ => false) .unaligned
    exact ⟨i, listed, named.trans (best_of_none_passing p _ _), small⟩
  · -- where nothing else passes, an implementation wins the aligned calls
    intro i listed
    obtain ⟨j, listed', named, within⟩ := bound (·.name == i.name) .aligned
    have wellFormed := (r.machine.wellFormed.primitives p member).wellFormed
    have same : j = i := List.inj_on_of_nodup_map wellFormed.distinct listed' listed
      (named.trans (bestAligned_of_one_passing listed _))
    exact same ▸ within

/-- What a report says depends on the measurements alone, which are those of all implementations of
each primitive. For calls on any address its winners fit unless none that needs no boundary passed;
for aligned calls the winner is the fastest of all that passed, whether the table promises its
boundary or not. So winners fit whatever is measured exactly if the table could hold every one. -/
theorem winners_fit_iff (cpu requested : CapabilitySet) (tables : List Table) (config : Config)
    (r : Registry) (ok : (Registry.new cpu tables requested config).outcome = .ok r) :
    (∀ place workload elapsed report, r.profileAt place workload elapsed = .ok report →
      ∃ tests, Measured r tests ∧
        report = Profile.report r ⟨workload.points, max workload.iterations 1⟩ tests) ∧
    (∀ workload tests, Measured r tests → ∀ test ∈ (Profile.report r workload tests).tests,
      (∃ implementations, r.eligible test.name = .ok implementations ∧
        test.results.map (·.1) = implementations.map (·.name)) ∧
      Fastest test.results (fun _ => true) test.bestAligned ∧
      (r.CanBind test.name .unaligned test.bestUnaligned ∨
        test.bestUnaligned = "generic" ∧
          ∀ result ∈ test.results, result.2.passed = true → 1 < result.2.alignment)) ∧
    ((∀ workload tests, Measured r tests → ∀ test ∈ (Profile.report r workload tests).tests,
      ∀ contract, r.CanBind test.name contract (test.best contract)) ↔ r.machine.HoldsWinners) := by
  have built := Registry.built_of_ok ok
  refine ⟨fun place workload elapsed report => measured_of_profileAt, ?_,
    holdsWinners_of_canBind built, ?_⟩
  · intro workload tests measured test reported
    exact ⟨results_of_test built measured reported, (fastest_of_test reported).1,
      canBind_bestUnaligned built measured reported⟩
  · intro holds workload tests measured test reported contract
    obtain ⟨p, member, runs, all, rfl⟩ := exists_of_test built measured reported
    obtain ⟨i, listed, fits, named⟩ := exists_winner holds member all workload.iterations contract
    exact (canBind_iff built member).mpr ⟨i, listed, named, fits⟩

section Tables

def splittingWide : Primitive :=
  ⟨"deinterleave", .deinterleave, [.portable "wide" .generic 32 .deinterleave,
    .portable "generic" .generic 1 .deinterleave]⟩

/-- A table that promises the boundary of all its implementations. -/
def roomy : Table where
  name := "roomy"
  mask := .generic
  alignment := 32
  primitives := [summing [genericSum], splittingWide]
  accepted := by decide

/-- The same implementations without a boundary. -/
def cramped : Table where
  name := "cramped"
  mask := .generic
  alignment := 1
  primitives := [summing [genericSum], splittingWide]
  accepted := by decide

end Tables

/-- The only one to pass here needs the boundary of the table; the other winner did not pass. -/
theorem winners_fit_on_roomy :
    ∃ r, (Registry.new .generic [roomy] .generic {}).outcome = .ok r ∧
      ∃ tests, Measured r tests ∧ ∃ test ∈ (Profile.report r .default tests).tests,
        test.bestAligned = "wide" ∧ test.bestUnaligned = "generic" ∧
          ∀ contract, r.CanBind test.name contract (test.best contract) := by
  obtain ⟨r, ok, machine⟩ := exists_registry .generic [roomy] roomy (by decide)
  have measured := measured_passing (Registry.built_of_ok ok) (·.name == "wide")
  have member : splittingWide ∈ r.machine.primitives := by
    rw [machine]
    decide
  obtain ⟨-, -, fit⟩ := winners_fit_iff .generic .generic [roomy] {} r ok
  have holds : r.machine.HoldsWinners := by
    rw [machine]
    unfold Table.HoldsWinners
    decide
  exact ⟨r, ok, _, measured, _, passingTest_mem member, rfl, rfl,
    fit.mpr holds _ _ measured _ (passingTest_mem member)⟩

theorem size_of_splits {input real imag : Start} {i : Implementation}
    {out : Slice Single × Slice Single} (ran : Splits input real imag 0 i out) :
    out.1.size = 0 ∧ out.2.size = 0 := by
  obtain ⟨v, -, ran⟩ := ran
  have accepts : v.Accepts (splitInput input 0) (splitOutput real 0, splitOutput imag 0) :=
    ⟨by simp, by simp, fun occupied => absurd (size_splitInput input 0) occupied⟩
  obtain ⟨out', ran', split⟩ := Deinterleave.run_splitUpTo accepts
  cases ran.symm.trans ran'
  exact ⟨split.real.size.trans (size_splitOutput real 0),
    split.imag.size.trans (size_splitOutput imag 0)⟩

theorem sameValues_of_empty {a b : Slice Single} (left : a.size = 0) (right : b.size = 0) :
    sameValues a b = true := by
  have none : a.elements = #[] := Array.eq_empty_of_size_eq_zero left
  have none' : b.elements = #[] := Array.eq_empty_of_size_eq_zero right
  simp [sameValues, left, right, none, none']

theorem passed_of_no_points {place : Placement} {i base : Implementation} {c : Comparison}
    (compared : Compared place 0 i base .deinterleave c) : c.passed = true := by
  obtain ⟨out, expected, ran, ran', rfl⟩ := compared_splits_iff.mp compared
  obtain ⟨real, imag⟩ := size_of_splits ran
  obtain ⟨real', imag'⟩ := size_of_splits ran'
  simp [Comparison.ofSplits, sameValues_of_empty real real', sameValues_of_empty imag imag']

/-- A profile in which all pass in the same time, the first on a boundary that no call promises. -/
theorem winner_does_not_fit_cramped :
    ∃ r, (Registry.new .generic [cramped] .generic {}).outcome = .ok r ∧ r.alignment = 1 ∧
      ∃ report, r.profile ⟨0, 1⟩ (fun _ _ => 7) = .ok report ∧ ∃ test ∈ report.tests,
        test.name = "deinterleave" ∧ test.bestAligned = "wide" ∧
          ¬ r.CanBind test.name .aligned test.bestAligned := by
  obtain ⟨r, ok, machine⟩ := exists_registry .generic [cramped] cramped (by decide)
  have built := Registry.built_of_ok ok
  have plain : ∀ p ∈ r.machine.primitives, Plain p 0 := by
    intro p member
    simp only [machine, cramped, List.mem_cons, List.not_mem_nil, or_false] at member
    rcases member with rfl | rfl
    · exact ⟨rfl, by decide, by decide, by decide⟩
    · exact ⟨rfl, by decide, by decide, by decide⟩
  have hosts : ∀ p ∈ r.machine.primitives, r.Hosts p.shape p :=
    fun p member => ⟨member, (plain p member).named, rfl⟩
  have succeeds : ∃ report, r.profile ⟨0, 1⟩ (fun _ _ => 7) = .ok report :=
    (exists_profileAt_iff built).mpr fun p member =>
      ⟨p, hosts p member, (plain p member).profilable (hosts p member).wellFormed .origin⟩
  obtain ⟨report, profiled⟩ := succeeds
  have member : splittingWide ∈ r.machine.primitives := by
    rw [machine]
    decide
  obtain ⟨test, reported, _, base, stand, -, -, -, result⟩ :=
    forall₂_left (profiled_of_profileAt built profiled) member
  have won : test.bestAligned = "wide" := by
    obtain ⟨tests, -, rfl⟩ := measured_of_profileAt profiled
    have fastest := (fastest_of_test reported).1
    obtain ⟨_, _, ⟨c, compared, rfl⟩, others, results⟩ := List.forall₂_cons_left_iff.mp result.results
    obtain ⟨_, _, ⟨c', -, rfl⟩, ends, rfl⟩ := List.forall₂_cons_left_iff.mp others
    obtain rfl := List.forall₂_nil_left_iff.mp ends
    rw [results] at fastest
    -- both took the same time, so the first of them stays
    exact fastest.of_tie (passed_of_no_points compared) fun _ tied => by
      rw [List.mem_singleton.mp tied]
      rfl
  have alone : r.alignment = 1 := congrArg Table.alignment machine
  refine ⟨r, ok, alone, report, profiled, test, reported, result.name, won, fun binds => ?_⟩
  rw [result.name, won, canBind_iff built member] at binds
  obtain ⟨i, listed, named, within⟩ := binds
  rw [machine] at within
  rcases List.mem_pair.mp listed with rfl | rfl
  · exact absurd within (by decide)
  · exact absurd named (by decide)

end Profile
end SimdDispatch
