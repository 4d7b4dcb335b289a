import SimdDispatch.Proofs.Pinned
import SimdDispatch.Proofs.Profile

/-!
The winners of a profile. Whichever runs pass and however long they take, the winner for each
contract is an implementation that its slot can hold, if the machine is a built-in one. So the
configuration made of a report resolves to its winners wherever the machine runs.
-/
namespace SimdDispatch

theorem Timing.faster_iff {a b : Timing} :
    a.faster b = true ↔ totalOrder a.perCallNs < totalOrder b.perCallNs := by
  simp [faster]

/-- The winner of some results: of those that passed and are accepted, the first that no other is
faster than. Where there are none it is the portable implementation. -/
inductive Fastest (results : List (String × Timing)) (accept : Timing → Bool) : String → Prop
  | winner (before after : List (String × Timing)) (name : String) (t : Timing)
      (split : results = before ++ (name, t) :: after)
      (passed : t.passed = true) (accepted : accept t = true)
      (earlier : ∀ r ∈ before, r.2.passed = true → accept r.2 = true → t.faster r.2 = true)
      (later : ∀ r ∈ after, r.2.passed = true → accept r.2 = true → r.2.faster t = false) :
      Fastest results accept name
  | portable (nobody : ∀ r ∈ results, r.2.passed = true → accept r.2 = false) :
      Fastest results accept "generic"

theorem foldl_fasterResult (results : List (String × Timing)) (nonempty : results ≠ []) :
    ∃ before best after, results = before ++ best :: after ∧
      results.foldl fasterResult none = some best ∧
      (∀ r ∈ before, best.2.faster r.2 = true) ∧ ∀ r ∈ after, r.2.faster best.2 = false := by
  -- by the last result, which replaces the best of those before it only if it is faster
  induction results using List.reverseRecOn with
  | nil => exact absurd rfl nonempty
  | append_singleton results next ih =>
    rw [List.foldl_append]
    by_cases empty : results = []
    · subst empty
      exact ⟨[], next, [], rfl, rfl, by simp, by simp⟩
    · obtain ⟨before, best, after, split, found, earlier, later⟩ := ih empty
      rw [found]
      by_cases beaten : next.2.faster best.2 = true
      · refine ⟨results, next, [], rfl, by simp [fasterResult, beaten], ?_, by simp⟩
        intro r member
        rw [Timing.faster_iff] at beaten ⊢
        rw [split] at member
        rcases List.mem_append.mp member with early | rest
        · have := Timing.faster_iff.mp (earlier r early)
          omega
        · rcases List.mem_cons.mp rest with rfl | late
          · exact beaten
          · have slower := mt Timing.faster_iff.mpr (Bool.eq_false_iff.mp (later r late))
            omega
      · refine ⟨before, best, after ++ [next], by simp [split], by simp [fasterResult, beaten],
          earlier, ?_⟩
        intro r member
        rcases List.mem_append.mp member with late | last
        · exact later r late
        · rw [List.mem_singleton.mp last]
          simpa using beaten

theorem fastest_spec (results : List (String × Timing)) (accept : Timing → Bool) :
    Fastest results accept (fastest results accept) := by
  by_cases none : (results.filter fun r => r.2.passed && accept r.2) = []
  · have portable : fastest results accept = "generic" := by
      rw [fastest, none]
      rfl
    rw [portable]
    refine .portable fun r member passed => ?_
    simpa [passed] using List.filter_eq_nil_iff.mp none r member
  · obtain ⟨before, ⟨name, t⟩, after, split, found, earlier, later⟩ :=
      foldl_fasterResult _ none
    have named : fastest results accept = name := by
      rw [fastest, found]
    -- a place among the results that count is a place among all of them
    obtain ⟨early, rest, parts, rfl, kept⟩ := List.filter_eq_append_iff.mp split
    obtain ⟨skipped, late, parts', unmet, counted, rfl⟩ := List.filter_eq_cons_iff.mp kept
    obtain ⟨passed, accepted⟩ : t.passed = true ∧ accept t = true := by
      simpa using counted
    rw [named]
    refine .winner (early ++ skipped) late name t (by simp [parts, parts']) passed accepted ?_ ?_
    · intro r member passed accepted
      rcases List.mem_append.mp member with first | between
      · exact earlier r (List.mem_filter.mpr ⟨first, by simp [passed, accepted]⟩)
      · exact absurd (by simp [passed, accepted]) (unmet r between)
    · intro r member passed accepted
      exact later r (List.mem_filter.mpr ⟨member, by simp [passed, accepted]⟩)

/-- Every primitive has the implementation that is recommended where none passed, and none of its
implementations needs more than aligned calls of the table guarantee. -/
def Table.HoldsWinners (t : Table) : Prop :=
  ∀ p ∈ t.primitives, (∃ i ∈ p.implementations, i.name = "generic" ∧ i.alignment ≤ 1) ∧
    ∀ i ∈ p.implementations, i.alignment ≤ t.alignment

theorem Machines.builtin_holdsWinners : ∀ t ∈ builtin, t.HoldsWinners := by
  unfold Table.HoldsWinners
  decide

theorem Machines.builtin_named : ∀ t ∈ builtin, t.name ≠ "" ∧ Text.trim t.name = t.name := by
  decide

def PrimitiveReport.best (test : PrimitiveReport) : Contract → String
  | .aligned => test.bestAligned
  | .unaligned => test.bestUnaligned

namespace Profile

/-- The winner of runs is one of those that ran, with a boundary that its contract accepts. -/
theorem exists_of_fastest {runs : List (Implementation × Nat × Comparison)} {iterations : Nat}
    {accept : Timing → Bool} {name : String}
    (won : Fastest (runs.map fun (i, elapsed, c) => (i.name, Timing.of i elapsed iterations c))
      accept name) :
    name = "generic" ∨ ∃ i ∈ runs.map (·.1), i.name = name ∧
      ∃ timing : Timing, timing.alignment = i.alignment ∧ accept timing = true := by
  cases won with
  | portable nobody => exact .inl rfl
  | winner before after name timing split passed accepted earlier later =>
    have listed : (name, timing) ∈ runs.map fun (i, elapsed, c) =>
        (i.name, Timing.of i elapsed iterations c) := by
      rw [split]
      simp
    obtain ⟨⟨i, elapsed, c⟩, ran, same⟩ := List.mem_map.mp listed
    cases same
    exact .inr ⟨i, List.mem_map_of_mem ran, rfl, _, rfl, accepted⟩

section Winners

variable {r : Registry} (holds : r.machine.HoldsWinners)
include holds

theorem exists_winner {p : Primitive} (member : p ∈ r.machine.primitives)
    {runs : List (Implementation × Nat × Comparison)} (all : runs.map (·.1) = p.implementations)
    (iterations : Nat) (contract : Contract) :
    ∃ i ∈ p.implementations, i.alignment ≤ r.machine.boundary contract ∧
      i.name = (PrimitiveReport.of p.name (runs.map fun (i, elapsed, c) =>
        (i.name, Timing.of i elapsed iterations c))).best contract := by
  obtain ⟨⟨fallback, listed, named, anywhere⟩, within⟩ := holds p member
  cases contract with
  | aligned =>
    rcases exists_of_fastest (fastest_spec _ fun _ => true) with none | ⟨i, ran, won, -⟩
    · exact ⟨fallback, listed, within fallback listed, named.trans none.symm⟩
    · rw [all] at ran
      exact ⟨i, ran, within i ran, won⟩
  | unaligned =>
    rcases exists_of_fastest (fastest_spec _ fun t => t.alignment ≤ 1) with
      none | ⟨i, ran, won, timing, same, accepted⟩
    · exact ⟨fallback, listed, anywhere, named.trans none.symm⟩
    · rw [all] at ran
      have small : i.alignment ≤ 1 := same ▸ of_decide_eq_true accepted
      exact ⟨i, ran, small, won⟩

/-- An entry of a resolution that holds the winners of a test. -/
structure Crowned (entry : String × Binding) (test : PrimitiveReport) : Prop where
  name : entry.1 = test.name
  aligned : entry.2.aligned.name = test.bestAligned
  unaligned : entry.2.unaligned.name = test.bestUnaligned

theorem exists_bindings {config : Config} {tables : List Table} {cpu requested : CapabilitySet}
    (built : Registry.Built cpu tables requested config r) (workload : Workload)
    {tests : List (String × List (Implementation × Nat × Comparison))} (measured : Measured r tests) :
    ∃ bindings, List.Forall₂ (·.Fits r.machine ·) r.machine.primitives bindings ∧
      List.Forall₂ Crowned bindings (Profile.report r workload tests).tests := by
  have names : r.bindings.map (·.1) = r.machine.primitives.map (·.name) :=
    (Resolution.resolved_of_ok built.resolved).names
  rw [Measured, names, List.forall₂_map_left_iff] at measured
  have each : ∀ p test, p ∈ r.machine.primitives ∧ test ∈ tests ∧
      test.1 = p.name ∧ r.eligible p.name = .ok (test.2.map (·.1)) →
      ∃ entry : String × Binding, p.Fits r.machine entry ∧
        Crowned entry (PrimitiveReport.of test.1 (test.2.map fun (i, elapsed, c) =>
          (i.name, Timing.of i elapsed workload.iterations c))) := by
    rintro p ⟨_, runs⟩ ⟨member, -, rfl, eligible⟩
    rw [Registry.eligible_of_mem member] at eligible
    have all : runs.map (·.1) = p.implementations := (Except.ok.inj eligible).symm
    choose winner listed within named using exists_winner holds member all workload.iterations
    refine ⟨(p.name, ⟨winner .aligned, winner .unaligned⟩), ⟨rfl, ?_, ?_⟩,
      ⟨rfl, named .aligned, named .unaligned⟩⟩
    · rintro (_ | _)
      · exact listed .aligned
      · exact listed .unaligned
    · rintro (_ | _)
      · exact within .aligned
      · exact within .unaligned
  obtain ⟨bindings, fits, crowned⟩ := forall₂_between (forall₂_members measured) each
  exact ⟨bindings, fits, List.forall₂_map_right_iff.mpr crowned⟩

end Winners

/-- Whatever a built-in machine has measured, the configuration of its report resolves wherever the
machine runs: to the machine, with the fastest that passed in every slot. -/
theorem toConfig_resolves (cpu requested mask : CapabilitySet) (config : Config) (r : Registry)
    (ok : (Registry.withMask cpu requested config).outcome = .ok r)
    (runs : r.machine.mask ⊆ mask ∪ .generic) :
    (∀ place workload elapsed report, r.profileAt place workload elapsed = .ok report →
      ∃ tests, Measured r tests ∧
        report = Profile.report r ⟨workload.points, max workload.iterations 1⟩ tests) ∧
      ∀ workload tests, Measured r tests →
        let report := Profile.report r workload tests
        ∃ chosen, (Resolution.withMask mask report.toConfig).outcome = .ok chosen ∧
          chosen.table = r.machine ∧
          List.Forall₂ (fun entry test => Crowned entry test ∧
              Fastest test.results (fun _ => true) test.bestAligned ∧
              Fastest test.results (·.alignment ≤ 1) test.bestUnaligned)
            chosen.bindings report.tests := by
  refine ⟨fun place workload elapsed report => measured_of_profileAt, ?_⟩
  intro workload tests measured report
  have built := Registry.built_of_ok ok
  have resolved := Resolution.resolved_of_ok built.resolved
  have member : r.machine ∈ Machines.builtin := resolved.chosen.mem
  obtain ⟨named, trimmed⟩ : r.machine.name ≠ "" ∧ Text.trim r.machine.name = r.machine.name :=
    Machines.builtin_named r.machine member
  obtain ⟨bindings, fits, crowned⟩ :=
    exists_bindings (Machines.builtin_holdsWinners r.machine member) built workload measured
  have asked : report.toConfig = .asking r.machine bindings := by
    have same : (report.tests.map fun t =>
        (t.name, (⟨some t.bestAligned, some t.bestUnaligned⟩ : Preference))) =
        bindings.map fun entry =>
          (entry.1, ⟨some entry.2.aligned.name, some entry.2.unaligned.name⟩) := by
      refine map_eq_of_forall₂ (crowned.flip.imp fun test entry held => ?_)
      rw [← held.name, ← held.aligned, ← held.unaligned]
    rw [Report.toConfig, same]
    rfl
  refine ⟨⟨r.machine, mask ∪ .generic, bindings⟩, ?_, rfl, ?_⟩
  · rw [asked]
    exact Resolution.new_asking_outcome fits resolved.accepted member named trimmed runs
  · have best : ∀ test ∈ report.tests, Fastest test.results (fun _ => true) test.bestAligned ∧
        Fastest test.results (·.alignment ≤ 1) test.bestUnaligned := by
      intro test listed
      obtain ⟨measurement, -, rfl⟩ := List.mem_map.mp listed
      exact ⟨fastest_spec _ _, fastest_spec _ _⟩
    exact (forall₂_members crowned).imp fun entry test ⟨_, listed, held⟩ => ⟨held, best test listed⟩

/-- Where only the implementations on a boundary of sixteen bytes pass, none is left for calls on any
address. The machine is resolved to although the processor runs a better one. -/
theorem toConfig_resolves_on_sixteen_bytes :
    let cpu : CapabilitySet := ⟨0xffffffff⟩
    let config : Config := { disabled := [" F.mA "] }
    ∃ r, (Registry.withMask cpu cpu config).outcome = .ok r ∧
      r.machine.mask ⊆ cpu ∪ .generic ∧ ∃ tests, Measured r tests ∧
        ∃ chosen, (Resolution.withMask cpu
            (Profile.report r .default tests).toConfig).outcome = .ok chosen ∧
          chosen.table.name = "avx" ∧ ∃ entry ∈ chosen.bindings, entry.1 = "sum_of_poly" ∧
            entry.2.aligned.name = "a_sse3" ∧ entry.2.unaligned.name = "generic" := by
  intro cpu config
  obtain ⟨r, ok, passed⟩ : ∃ r, (Registry.withMask cpu cpu config).outcome = .ok r ∧
      (r.machine.name == "avx" && r.machine.mask ==
        .ofList [.generic, .sse, .sse2, .sse3, .ssse3, .sse41, .avx]) = true :=
    exists_of_okAnd (by decide)
  simp only [Bool.and_eq_true, beq_iff_eq] at passed
  obtain ⟨named, mask⟩ := passed
  have resolved := Resolution.resolved_of_ok (Registry.built_of_ok ok).resolved
  have runs : r.machine.mask ⊆ cpu ∪ .generic := by
    rw [mask]
    decide
  let tests := r.machine.primitives.map fun p =>
    (p.name, p.implementations.map fun i => (i, 7, Comparison.mk 0 (i.alignment == 16)))
  have measured : Measured r tests := by
    have names : r.bindings.map (·.1) = r.machine.primitives.map (·.name) := resolved.names
    rw [Measured, names, List.forall₂_map_left_iff, List.forall₂_map_right_iff, List.forall₂_same]
    intro p member
    rw [Registry.eligible_of_mem member, List.map_map]
    exact ⟨rfl, congrArg Except.ok (List.map_id _).symm⟩
  obtain ⟨-, resolves⟩ := toConfig_resolves cpu cpu cpu config r ok runs
  obtain ⟨chosen, settled, table, crowned⟩ := resolves .default tests measured
  have primitives : r.machine.primitives = Catalog.all.map (·.filtered r.machine.mask) :=
    Machines.builtin_primitives resolved.chosen.mem
  have present : Catalog.sumOfPoly.filtered r.machine.mask ∈ r.machine.primitives := by
    rw [primitives]
    exact List.mem_map_of_mem List.mem_cons_self
  obtain ⟨entry, listed, held, -⟩ := forall₂_right crowned
    (List.mem_map_of_mem (List.mem_map_of_mem present))
  refine ⟨r, ok, runs, tests, measured, chosen, settled, by rw [table, named], entry, listed,
    held.name, ?_, ?_⟩
  · rw [held.aligned, mask]
    rfl
  · rw [held.unaligned, mask]
    rfl

end Profile
end SimdDispatch
