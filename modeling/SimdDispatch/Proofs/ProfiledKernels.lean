import SimdDispatch.Proofs.NamedComparisons

/-!
The kernels that a profile of a registry runs. An implementation of a primitive is run by its name in
the primitive named for its shape: there the name must be found, and what is found there is run.
-/
namespace SimdDispatch.Profile

/-- A primitive can be profiled through the host of its shape: its input can be allocated, the host
has a reference, and every name of the primitive is also one of the host, on suitable buffers. -/
structure Profilable (host p : Primitive) (place : Placement) (points : Nat) : Prop where
  room : fits p.shape points = true
  reference : ∃ base, Callable host points (place.referenceStarts p.shape) "generic" base
  each : ∀ i ∈ p.implementations, ∃ j, Callable host points (place.starts p.shape) i.name j

/-- The report of a primitive for which `stand i` was run in the place of `i`: the names of its own
implementations in their order, and what was found about those that were run. -/
structure Profiled (p : Primitive) (stand : Implementation → Implementation) (base : Implementation)
    (place : Placement) (workload : Workload) (elapsed : String → Nat) (test : PrimitiveReport) :
    Prop where
  name : test.name = p.name
  results : List.Forall₂ (fun i result => ∃ c,
      Compared place workload.points (stand i) base p.shape c ∧
        result = (i.name, Timing.of i (elapsed i.name) workload.iterations c))
    p.implementations test.results

/-- A primitive in which nothing can go amiss: it hosts its shape itself, has the reference, and
needs no boundary beyond those of buffers. -/
structure Plain (p : Primitive) (points : Nat) : Prop where
  named : p.name = p.shape.name
  room : fits p.shape points = true
  generic : ∃ i ∈ p.implementations, i.name = "generic"
  within : ∀ i ∈ p.implementations, i.alignment ≤ maxAlignment

theorem Placement.onBlocks (place : Placement) (shape : Shape) :
    (∀ a ∈ place.starts shape, maxAlignment ∣ a) ∧
      ∀ a ∈ place.referenceStarts shape, maxAlignment ∣ a := by
  cases shape with
  | sumOfPoly => simp [starts, referenceStarts, place.input.property]
  | deinterleave =>
    simp [starts, referenceStarts, place.input.property, place.real.property, place.imag.property,
      place.referenceReal.property, place.referenceImag.property]

theorem callable_of_within {p : Primitive} (wellFormed : p.WellFormed) {i : Implementation}
    (listed : i ∈ p.implementations) (within : i.alignment ≤ maxAlignment) (points : Nat)
    {starts : List Nat} (onBlocks : ∀ a ∈ starts, maxAlignment ∣ a) :
    Callable p points starts i.name i := by
  have power := (wellFormed.entries i listed).power
  have divides : i.alignment ∣ maxAlignment := dvd_of_isPowerOfTwo power (by decide) within
  exact ⟨listed, rfl, fun _ a member => divides.trans (onBlocks a member)⟩

theorem Plain.profilable {p : Primitive} {points : Nat} (plain : Plain p points)
    (wellFormed : p.WellFormed) (place : Placement) : Profilable p p place points := by
  obtain ⟨starts, referenceStarts⟩ := place.onBlocks p.shape
  refine ⟨plain.room, ?_, fun i listed => ?_⟩
  · obtain ⟨base, listed, named⟩ := plain.generic
    exact ⟨base, named ▸ callable_of_within wellFormed listed (plain.within base listed) points
      referenceStarts⟩
  · exact ⟨i, callable_of_within wellFormed listed (plain.within i listed) points starts⟩

section Bound

variable {place : String → Placement} {elapsed : String → String → Nat} {r : Registry}
  {config : Config} {p : Primitive} (member : p ∈ r.machine.primitives)
  {entry : String × Binding} (bound : Resolution.Bound r.machine config p entry)
  {workload : Workload} {test : String × List (Implementation × Nat × Comparison)}
include member bound

theorem runs_eq_ok_iff_of_bound :
    runs place r workload elapsed entry = .ok test ↔
      ∃ found, compare (place p.name) r p.shape (p.implementations.map (·.name)) workload.points =
          .ok found ∧
        test = (p.name, (p.implementations.zip found).map fun (i, c) =>
          (i, elapsed p.name i.name, c)) := by
  obtain ⟨name, b⟩ := entry
  obtain ⟨rfl, filled⟩ := bound
  have checked := (r.machine.wellFormed.primitives p member).wellFormed
  have shaped : b.aligned.shape = p.shape := (checked.entries _ (filled .aligned).mem).shaped
  rw [runs_eq_ok_iff, shaped, Registry.eligible_of_mem member]
  constructor
  · rintro ⟨implementations, found, same, compared, rfl⟩
    cases same
    exact ⟨found, compared, rfl⟩
  · rintro ⟨found, compared, rfl⟩
    exact ⟨p.implementations, found, rfl, compared, rfl⟩

variable {host : Primitive} (hosts : r.Hosts p.shape host)
include hosts

theorem exists_runs_iff :
    (∃ test, runs place r workload elapsed entry = .ok test) ↔
      Profilable host p (place p.name) workload.points := by
  constructor
  · rintro ⟨test, ran⟩
    obtain ⟨found, compared, -⟩ := (runs_eq_ok_iff_of_bound member bound).mp ran
    obtain ⟨room, reference, each⟩ := (exists_compare_iff hosts).mp ⟨found, compared⟩
    exact ⟨room, reference, fun i listed => each i.name (List.mem_map_of_mem listed)⟩
  · rintro ⟨room, reference, each⟩
    obtain ⟨found, compared⟩ :=
      (exists_compare_iff hosts).mpr ⟨room, reference, List.forall_mem_map.mpr each⟩
    exact ⟨_, (runs_eq_ok_iff_of_bound member bound).mpr ⟨found, compared, rfl⟩⟩

theorem profiled_of_runs (ran : runs place r workload elapsed entry = .ok test) :
    ∃ base stand, Callable host workload.points ((place p.name).referenceStarts p.shape) "generic"
        base ∧
      (∀ i ∈ p.implementations,
        Callable host workload.points ((place p.name).starts p.shape) i.name (stand i)) ∧
      Profiled p stand base (place p.name) workload (elapsed p.name)
        (PrimitiveReport.of test.1 (test.2.map fun (i, elapsed, c) =>
          (i.name, Timing.of i elapsed workload.iterations c))) := by
  obtain ⟨-, -, each⟩ := (exists_runs_iff member bound hosts).mp ⟨test, ran⟩
  obtain ⟨found, compared, rfl⟩ := (runs_eq_ok_iff_of_bound member bound).mp ran
  obtain ⟨-, base, reference, related⟩ := (compare_eq_ok_iff hosts).mp compared
  -- names are distinct in the host, so a namesake chosen is the one that was run
  have : Nonempty Implementation := ⟨base⟩
  choose! stand callable using each
  refine ⟨base, stand, reference, callable, rfl, ?_⟩
  rw [List.forall₂_map_left_iff] at related
  have zipped := forall₂_zip_map (forall₂_members related) fun (i, c) =>
    (i.name, Timing.of i (elapsed p.name i.name) workload.iterations c)
  simp only [PrimitiveReport.of, List.map_map]
  refine zipped.imp ?_
  rintro i result ⟨c, ⟨listed, -, j, called, compared⟩, rfl⟩
  have same : j = stand i :=
    called.unique hosts.wellFormed (callable i listed).listed (callable i listed).named
  exact ⟨c, same ▸ compared, rfl⟩

end Bound

section Built

variable {cpu requested : CapabilitySet} {tables : List Table} {config : Config} {r : Registry}
  (built : Registry.Built cpu tables requested config r) {place : String → Placement}
  {workload : Workload} {elapsed : String → String → Nat}
include built

theorem exists_profileAt_iff :
    (∃ report, r.profileAt place workload elapsed = .ok report) ↔
      ∀ p ∈ r.machine.primitives, ∃ host, r.Hosts p.shape host ∧
        Profilable host p (place p.name) workload.points := by
  have bound := (Resolution.resolved_of_ok built.resolved).bound
  have measures : (∃ report, r.profileAt place workload elapsed = .ok report) ↔
      ∀ entry ∈ r.bindings, ∃ test,
        runs place r ⟨workload.points, max workload.iterations 1⟩ elapsed entry = .ok test := by
    rw [← exists_forall₂_iff]
    simp only [profileAt_eq_ok_iff]
    exact ⟨fun ⟨_, tests, ran, _⟩ => ⟨tests, ran⟩, fun ⟨tests, ran⟩ => ⟨_, tests, ran, rfl⟩⟩
  rw [measures]
  constructor
  · intro each p member
    obtain ⟨host, hosts⟩ := built.exists_host p.shape
    obtain ⟨entry, listed, held⟩ := forall₂_left bound member
    exact ⟨host, hosts, (exists_runs_iff member held hosts).mp (each entry listed)⟩
  · intro each entry listed
    obtain ⟨p, member, held⟩ := forall₂_right bound listed
    obtain ⟨host, hosts, profilable⟩ := each p member
    exact (exists_runs_iff member held hosts).mpr profilable

theorem profileAt_ne_ok {p host : Primitive} (member : p ∈ r.machine.primitives)
    (hosting : host ∈ r.machine.primitives) (named : host.name = p.shape.name)
    (unfit : ¬ Profilable host p (place p.name) workload.points) (report : Report) :
    r.profileAt place workload elapsed ≠ .ok report := by
  intro ok
  obtain ⟨host', hosts, profilable⟩ := (exists_profileAt_iff built).mp ⟨report, ok⟩ p member
  rw [← hosts.unique hosting named] at profilable
  exact unfit profilable

theorem profiled_of_profileAt {report : Report}
    (ok : r.profileAt place workload elapsed = .ok report) :
    List.Forall₂ (fun p test => ∃ host base stand, r.Hosts p.shape host ∧
        Callable host workload.points ((place p.name).referenceStarts p.shape) "generic" base ∧
        (∀ i ∈ p.implementations,
          Callable host workload.points ((place p.name).starts p.shape) i.name (stand i)) ∧
        Profiled p stand base (place p.name) ⟨workload.points, max workload.iterations 1⟩
          (elapsed p.name) test)
      r.machine.primitives report.tests := by
  have bound := (Resolution.resolved_of_ok built.resolved).bound
  obtain ⟨tests, ran, rfl⟩ := profileAt_eq_ok_iff.mp ok
  have related := forall₂_members (forall₂_comp bound ran)
  refine List.forall₂_map_right_iff.mpr (related.imp ?_)
  rintro p test ⟨member, -, entry, held, ran⟩
  obtain ⟨host, hosts⟩ := built.exists_host p.shape
  obtain ⟨base, stand, profiled⟩ := profiled_of_runs member held hosts ran
  exact ⟨host, base, stand, hosts, profiled⟩

end Built

theorem Profiled.itself {p : Primitive} (wellFormed : p.WellFormed) {points : Nat}
    {starts : List Nat} {stand : Implementation → Implementation} {base : Implementation}
    {place : Placement} {workload : Workload} {elapsed : String → Nat} {test : PrimitiveReport}
    (profiled : Profiled p stand base place workload elapsed test)
    (callable : ∀ i ∈ p.implementations, Callable p points starts i.name (stand i)) :
    Profiled p id base place workload elapsed test := by
  refine ⟨profiled.name, (forall₂_members profiled.results).imp ?_⟩
  rintro i result ⟨listed, -, c, compared, rfl⟩
  have same : stand i = i := (callable i listed).unique wellFormed listed rfl
  rw [same] at compared
  exact ⟨c, compared, rfl⟩

/-- Profiling a registry succeeds just where the primitive named for each shape has a reference and,
for every primitive of that shape, all of its names, on boundaries that the buffers start on; and it
is those namesakes that are run. Where every primitive is plain they are its own implementations. -/
theorem profileAt_runs_namesakes (cpu requested : CapabilitySet) (tables : List Table)
    (config : Config) (r : Registry) (ok : (Registry.new cpu tables requested config).outcome = .ok r)
    (place : String → Placement) (workload : Workload) (elapsed : String → String → Nat) :
    r.bindings.map (·.1) = r.machine.primitives.map (·.name) ∧
      ((∃ report, r.profileAt place workload elapsed = .ok report) ↔
        ∀ p ∈ r.machine.primitives, ∃ host, r.Hosts p.shape host ∧
          Profilable host p (place p.name) workload.points) ∧
      (∀ report, r.profileAt place workload elapsed = .ok report →
        List.Forall₂ (fun p test => ∃ host base stand, r.Hosts p.shape host ∧
            Callable host workload.points ((place p.name).referenceStarts p.shape) "generic" base ∧
            (∀ i ∈ p.implementations,
              Callable host workload.points ((place p.name).starts p.shape) i.name (stand i)) ∧
            Profiled p stand base (place p.name) ⟨workload.points, max workload.iterations 1⟩
              (elapsed p.name) test)
          r.machine.primitives report.tests) ∧
      ((∀ p ∈ r.machine.primitives, Plain p workload.points) →
        ∃ report, r.profileAt place workload elapsed = .ok report ∧
          List.Forall₂ (fun p test => ∃ base ∈ p.implementations, base.name = "generic" ∧
              Profiled p id base (place p.name) ⟨workload.points, max workload.iterations 1⟩
                (elapsed p.name) test)
            r.machine.primitives report.tests) := by
  have built := Registry.built_of_ok ok
  refine ⟨(Resolution.resolved_of_ok built.resolved).names, exists_profileAt_iff built,
    fun report => profiled_of_profileAt built, fun plain => ?_⟩
  have hosts : ∀ p ∈ r.machine.primitives, r.Hosts p.shape p :=
    fun p member => ⟨member, (plain p member).named, rfl⟩
  obtain ⟨report, ok⟩ := (exists_profileAt_iff built).mpr fun p member =>
    ⟨p, hosts p member, (plain p member).profilable (hosts p member).wellFormed (place p.name)⟩
  refine ⟨report, ok, (forall₂_members (profiled_of_profileAt built ok)).imp ?_⟩
  rintro p test ⟨member, -, host, base, stand, held, reference, callable, profiled⟩
  have itself : p = host := held.unique member (plain p member).named
  subst itself
  exact ⟨base, reference.listed, reference.named, profiled.itself held.wellFormed callable⟩

section Tables

def summing (implementations : List Implementation) : Primitive :=
  ⟨"sum_of_poly", .sumOfPoly, implementations⟩

def splitting : Primitive :=
  ⟨"deinterleave", .deinterleave, [.portable "generic" .generic 1 .deinterleave]⟩

def energy (name : String) : Primitive :=
  ⟨"energy", .sumOfPoly, [.portable name .generic 1 .sumOfPoly]⟩

def genericSum : Implementation := .portable "generic" .generic 1 .sumOfPoly

theorem quick_anywhere : (Kernel.sumOfPoly (.eightLanes false)).boundary ∣ 1 := by
  decide

def quickSum : Implementation :=
  ⟨"quick", Catalog.avx, 1, .sumOfPoly (.eightLanes false), quick_anywhere⟩

/-- Two kernels are called quick. -/
def twins : Table where
  name := "twins"
  mask := .ofList [.generic, .avx]
  alignment := 1
  primitives := [summing [quickSum, genericSum], splitting, energy "quick"]
  accepted := by decide

/-- The sums have no reference. -/
def renamed : Table where
  name := "renamed"
  mask := .generic
  alignment := 1
  primitives := [summing [.portable "base" .generic 1 .sumOfPoly], splitting]
  accepted := by decide

/-- The other primitive of sums has a name of its own. -/
def paired : Table where
  name := "paired"
  mask := .generic
  alignment := 1
  primitives := [summing [genericSum], splitting, energy "plain"]
  accepted := by decide

/-- One of the sums needs a boundary beyond that of buffers. -/
def wide : Table where
  name := "wide"
  mask := .generic
  alignment := 1
  primitives := [summing [.portable "wide" .generic 128 .sumOfPoly, genericSum], splitting]
  accepted := by decide

theorem exists_registry (cpu : CapabilitySet) (tables : List Table) (t : Table)
    (passes : okAnd (·.machine == t) (Registry.new cpu tables cpu {}).outcome = true) :
    ∃ r, (Registry.new cpu tables cpu {}).outcome = .ok r ∧ r.machine = t := by
  obtain ⟨r, ok, same⟩ := exists_of_okAnd passes
  exact ⟨r, ok, by simpa using same⟩

end Tables

/-- One quick kernel is run in the place of the other. -/
theorem profileAt_runs_quick_sum :
    ∃ r, (Registry.new Catalog.avx (twins :: Machines.builtin) Catalog.avx {}).outcome = .ok r ∧
      ∃ report, r.profile ⟨4, 1⟩ (fun _ _ => 7) = .ok report ∧ ∃ test ∈ report.tests,
        ∃ base stand, Profiled (energy "quick") stand base .origin ⟨4, 1⟩ (fun _ => 7) test ∧
          ∀ i ∈ (energy "quick").implementations,
            i.kernel = .sumOfPoly .scalar ∧ (stand i).kernel = .sumOfPoly (.eightLanes false) := by
  obtain ⟨r, ok, machine⟩ :=
    exists_registry Catalog.avx (twins :: Machines.builtin) twins (by decide)
  have sums : r.Hosts .sumOfPoly (summing [quickSum, genericSum]) :=
    ⟨machine ▸ List.mem_cons_self, rfl, rfl⟩
  have splits : r.Hosts .deinterleave splitting := ⟨by rw [machine]; decide, rfl, rfl⟩
  obtain ⟨-, succeeds, namesakes, -⟩ := profileAt_runs_namesakes Catalog.avx Catalog.avx
    (twins :: Machines.builtin) {} r ok (fun _ => .origin) ⟨4, 1⟩ fun _ _ => 7
  have profilable : ∀ p ∈ r.machine.primitives, ∃ host, r.Hosts p.shape host ∧
      Profilable host p .origin 4 := by
    intro p member
    simp only [machine, twins, List.mem_cons, List.not_mem_nil, or_false] at member
    rcases member with rfl | rfl | rfl
    · have plain : Plain (summing [quickSum, genericSum]) 4 :=
        ⟨rfl, by decide, by decide, by decide⟩
      exact ⟨_, sums, plain.profilable sums.wellFormed .origin⟩
    · have plain : Plain splitting 4 := ⟨rfl, by decide, by decide, by decide⟩
      exact ⟨_, splits, plain.profilable splits.wellFormed .origin⟩
    · refine ⟨_, sums, by decide, ⟨genericSum, by decide, rfl, fun _ _ _ => Nat.one_dvd _⟩, ?_⟩
      intro i listed
      rw [List.mem_singleton.mp listed]
      exact ⟨quickSum, List.mem_cons_self, rfl, fun _ _ _ => Nat.one_dvd _⟩
  obtain ⟨report, profiled⟩ := succeeds.mpr profilable
  have listed : energy "quick" ∈ r.machine.primitives := by
    rw [machine]
    decide
  obtain ⟨test, reported, host, base, stand, hosts, -, callable, result⟩ :=
    forall₂_left (namesakes report profiled) listed
  have itself : summing [quickSum, genericSum] = host := hosts.unique sums.member rfl
  subst itself
  refine ⟨r, ok, report, profiled, test, reported, base, stand, result, fun i own => ?_⟩
  have called := callable i own
  rw [List.mem_singleton.mp own] at called ⊢
  have runs : stand (.portable "quick" .generic 1 .sumOfPoly) = quickSum :=
    called.unique sums.wellFormed List.mem_cons_self rfl
  rw [runs]
  exact ⟨rfl, rfl⟩

/-- Registries that were built but cannot be profiled: for want of the reference, of a name in the
primitive that is named for the shape, or of a buffer on the boundary. -/
theorem profileAt_fails_on_built :
    (∃ r, (Registry.new .generic [renamed] .generic {}).outcome = .ok r ∧
      ∀ place workload elapsed report, r.profileAt place workload elapsed ≠ .ok report) ∧
      (∃ r, (Registry.new .generic [paired] .generic {}).outcome = .ok r ∧
        ∀ place workload elapsed report, r.profileAt place workload elapsed ≠ .ok report) ∧
      ∃ r, (Registry.new .generic [wide] .generic {}).outcome = .ok r ∧
        ∃ place, ∀ elapsed report, r.profileAt place ⟨4, 1⟩ elapsed ≠ .ok report := by
  refine ⟨?_, ?_, ?_⟩
  · obtain ⟨r, ok, machine⟩ := exists_registry .generic [renamed] renamed (by decide)
    have sums : summing [.portable "base" .generic 1 .sumOfPoly] ∈ r.machine.primitives :=
      machine ▸ List.mem_cons_self
    refine ⟨r, ok, fun place workload elapsed =>
      profileAt_ne_ok (Registry.built_of_ok ok) sums sums rfl ?_⟩
    rintro ⟨-, ⟨base, listed, named, -⟩, -⟩
    rw [List.mem_singleton.mp listed] at named
    exact absurd named (by decide)
  · obtain ⟨r, ok, machine⟩ := exists_registry .generic [paired] paired (by decide)
    have sums : summing [genericSum] ∈ r.machine.primitives := machine ▸ List.mem_cons_self
    have others : energy "plain" ∈ r.machine.primitives := by
      rw [machine]
      decide
    refine ⟨r, ok, fun place workload elapsed =>
      profileAt_ne_ok (Registry.built_of_ok ok) others sums rfl ?_⟩
    rintro ⟨-, -, each⟩
    obtain ⟨j, listed, named, -⟩ := each _ List.mem_cons_self
    rw [List.mem_singleton.mp listed] at named
    exact absurd named (by decide)
  · obtain ⟨r, ok, machine⟩ := exists_registry .generic [wide] wide (by decide)
    have sums : summing [.portable "wide" .generic 128 .sumOfPoly, genericSum] ∈
        r.machine.primitives := machine ▸ List.mem_cons_self
    let start : Start := ⟨64, by decide⟩
    refine ⟨r, ok, fun _ => ⟨start, start, start, start, start⟩, fun elapsed =>
      profileAt_ne_ok (Registry.built_of_ok ok) sums sums rfl ?_⟩
    rintro ⟨-, -, each⟩
    obtain ⟨j, listed, named, aligned⟩ := each _ List.mem_cons_self
    have divides := aligned (by decide) 64 List.mem_cons_self
    rcases List.mem_pair.mp listed with rfl | rfl
    · exact absurd divides (by decide)
    · exact absurd named (by decide)

end SimdDispatch.Profile
