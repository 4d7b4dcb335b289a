import SimdDispatch.Proofs.InPlace
import SimdDispatch.Proofs.NamedCalls

/-!
What a call by name comes to. Its checks are made in a fixed order, the name before the lengths of the
outputs and those before the addresses; behind them no kernel fails, so that a call which does not
succeed has written nothing.
-/
namespace SimdDispatch.Registry

/-- The implementation of a primitive that a name stands for. -/
structure Names (p : Primitive) (name : String) (i : Implementation) : Prop where
  listed : i ∈ p.implementations
  named : i.name = name

inductive SumOutcome (p : Primitive) (name : String) (input : Slice Single)
    (c : Coefficients Single) (cutoff : Single) : Except CallFailure Single → Prop
  | unknown (absent : ∀ i, ¬ Names p name i) :
      SumOutcome p name input c cutoff (.error (.refused (.unknownImplementation "sum_of_poly" name)))
  | misaligned (i : Implementation) (names : Names p name i) (occupied : input.size ≠ 0)
      (off : ¬ i.alignment ∣ input.address) :
      SumOutcome p name input c cutoff (.error (.refused (.misaligned name i.alignment)))
  | ran (i : Implementation) (names : Names p name i)
      (aligned : input.size ≠ 0 → i.alignment ∣ input.address) (v : SumOfPoly.Variant)
      (kernel : i.kernel = .sumOfPoly v) (value : Single)
      (ran : SumOfPoly.run v input c cutoff = .ok value) :
      SumOutcome p name input c cutoff (.ok value)

inductive SplitOutcome (p : Primitive) (name : String) (real imag : Slice Single)
    (input : Slice (Complex Single)) : Except CallFailure (Slice Single × Slice Single) → Prop
  | unknown (absent : ∀ i, ¬ Names p name i) :
      SplitOutcome p name real imag input
        (.error (.refused (.unknownImplementation "deinterleave" name)))
  | short (i : Implementation) (names : Names p name i)
      (short : real.size < input.size ∨ imag.size < input.size) :
      SplitOutcome p name real imag input (.error (.shortOutputs real.size imag.size input.size))
  | misaligned (i : Implementation) (names : Names p name i) (realRoom : input.size ≤ real.size)
      (imagRoom : input.size ≤ imag.size) (occupied : input.size ≠ 0)
      (off : ∃ a ∈ [input.address, real.address, imag.address], ¬ i.alignment ∣ a) :
      SplitOutcome p name real imag input (.error (.refused (.misaligned name i.alignment)))
  | ran (i : Implementation) (names : Names p name i) (realRoom : input.size ≤ real.size)
      (imagRoom : input.size ≤ imag.size)
      (aligned : input.size ≠ 0 → ∀ a ∈ [input.address, real.address, imag.address],
        i.alignment ∣ a)
      (v : Deinterleave.Variant) (kernel : i.kernel = .deinterleave v)
      (out : Slice Single × Slice Single) (ran : Deinterleave.run v real imag input = .ok out) :
      SplitOutcome p name real imag input (.ok out)

theorem checkAlignment_eq_error {i : Implementation} (power : isPowerOfTwo i.alignment = true)
    {addresses : List Nat} {size : Nat} (occupied : size ≠ 0)
    (off : ∃ a ∈ addresses, ¬ i.alignment ∣ a) :
    checkAlignment i addresses (size == 0) = .error (.refused (.misaligned i.name i.alignment)) := by
  cases checked : checkAlignment i addresses (size == 0) with
  | ok _ =>
    obtain ⟨a, member, off⟩ := off
    exact absurd ((checkAlignment_eq_ok_iff power).mp checked occupied a member) off
  | error e =>
    unfold checkAlignment at checked
    split at checked
    · cases checked
    · exact checked.symm

theorem checkOutputs_of_short {real imag : Slice Single} {input : Slice (Complex Single)}
    (short : real.size < input.size ∨ imag.size < input.size) :
    checkOutputs real imag input = .error (.shortOutputs real.size imag.size input.size) := by
  rw [checkOutputs, if_neg]
  omega

section Hosts

variable {r : Registry} {p : Primitive} {name : String}

theorem Hosts.names_of_found {shape : Shape} (hosts : r.Hosts shape p) {i : Implementation}
    (found : r.implementation shape.name name = .ok i) : Names p name i := by
  rw [hosts.implementation] at found
  split at found
  · rename_i j looked
    cases found
    obtain ⟨listed, named⟩ := (find?_name_eq_some_iff _ hosts.wellFormed.distinct).mp looked
    exact ⟨listed, named⟩
  · cases found

theorem Hosts.eq_of_sumOutcome (hosts : r.Hosts .sumOfPoly p) {input : Slice Single}
    {c : Coefficients Single} {cutoff : Single} {result : Except CallFailure Single}
    (outcome : SumOutcome p name input c cutoff result) :
    r.sumWith name input c cutoff = result := by
  cases outcome with
  | unknown absent =>
    have unknown : r.named .sumOfPoly Implementation.sumOfPoly? name = _ :=
      hosts.named_of_unknown fun i listed named => absent i ⟨listed, named⟩
    rw [sumWith, unknown]
    rfl
  | misaligned i names occupied off =>
    obtain ⟨listed, rfl⟩ := names
    obtain ⟨v, -, found⟩ := hosts.named_of_mem Implementation.sumOfPoly?_isSome listed
    have power := (hosts.wellFormed.entries i listed).power
    have checked := checkAlignment_eq_error power occupied ⟨_, List.mem_singleton_self _, off⟩
    rw [sumWith, found]
    change checkAlignment i [input.address] (input.size == 0) >>= _ = _
    rw [checked]
    rfl
  | ran i names aligned v kernel value ran =>
    exact hosts.sumWith_eq_ok_iff.mpr ⟨i, names.listed, names.named, aligned, v, kernel, ran⟩

theorem Hosts.exists_sumOutcome (hosts : r.Hosts .sumOfPoly p) (name : String)
    (input : Slice Single) (c : Coefficients Single) (cutoff : Single) :
    ∃ result, SumOutcome p name input c cutoff result := by
  by_cases known : ∃ i, Names p name i
  · obtain ⟨i, names⟩ := known
    by_cases aligned : input.size ≠ 0 → i.alignment ∣ input.address
    · have shaped := (hosts.wellFormed.entries i names.listed).shaped.trans hosts.shaped
      obtain ⟨v, kernel, sufficient⟩ := Implementation.exists_sumOfPoly shaped
      obtain ⟨value, ran⟩ := SumOfPoly.exists_run
        (fun occupied => sufficient.trans (aligned occupied)) c cutoff
      exact ⟨_, .ran i names aligned v kernel value ran⟩
    · rw [Classical.not_imp] at aligned
      exact ⟨_, .misaligned i names aligned.1 aligned.2⟩
  · exact ⟨_, .unknown fun i names => known ⟨i, names⟩⟩

theorem Hosts.eq_of_splitOutcome (hosts : r.Hosts .deinterleave p) {real imag : Slice Single}
    {input : Slice (Complex Single)} {result : Except CallFailure (Slice Single × Slice Single)}
    (outcome : SplitOutcome p name real imag input result) :
    r.splitWith name real imag input = result := by
  have reads := @Implementation.deinterleave?_isSome
  cases outcome with
  | unknown absent =>
    have unknown : r.named .deinterleave Implementation.deinterleave? name = _ :=
      hosts.named_of_unknown fun i listed named => absent i ⟨listed, named⟩
    rw [splitWith, unknown]
    rfl
  | short i names short =>
    obtain ⟨listed, rfl⟩ := names
    obtain ⟨v, -, found⟩ := hosts.named_of_mem reads listed
    rw [splitWith, found]
    change checkOutputs real imag input >>= _ = _
    rw [checkOutputs_of_short short]
    rfl
  | misaligned i names realRoom imagRoom occupied off =>
    obtain ⟨listed, rfl⟩ := names
    obtain ⟨v, -, found⟩ := hosts.named_of_mem reads listed
    have room := checkOutputs_eq_ok_iff.mpr ⟨realRoom, imagRoom⟩
    have power := (hosts.wellFormed.entries i listed).power
    refine (bind_of_success found _).trans ((bind_of_success room _).trans ?_)
    rw [checkAlignment_eq_error power occupied off]
    rfl
  | ran i names realRoom imagRoom aligned v kernel out ran =>
    exact hosts.splitWith_eq_ok_iff.mpr
      ⟨i, names.listed, names.named, realRoom, imagRoom, aligned, v, kernel, ran⟩

theorem Hosts.exists_splitOutcome (hosts : r.Hosts .deinterleave p) (name : String)
    (real imag : Slice Single) (input : Slice (Complex Single)) :
    ∃ result, SplitOutcome p name real imag input result := by
  by_cases known : ∃ i, Names p name i
  · obtain ⟨i, names⟩ := known
    by_cases room : input.size ≤ real.size ∧ input.size ≤ imag.size
    · obtain ⟨realRoom, imagRoom⟩ := room
      by_cases aligned : input.size ≠ 0 →
          ∀ a ∈ [input.address, real.address, imag.address], i.alignment ∣ a
      · have shaped := (hosts.wellFormed.entries i names.listed).shaped.trans hosts.shaped
        obtain ⟨v, kernel, sufficient⟩ := Implementation.exists_deinterleave shaped
        have accepts : v.Accepts input (real, imag) := by
          refine ⟨realRoom, imagRoom, fun occupied => ?_⟩
          have each := aligned occupied
          exact ⟨sufficient.trans (each _ (by simp)), sufficient.trans (each _ (by simp)),
            sufficient.trans (each _ (by simp))⟩
        obtain ⟨out, ran, -⟩ := Deinterleave.run_splitUpTo accepts
        exact ⟨_, .ran i names realRoom imagRoom aligned v kernel out ran⟩
      · rw [Classical.not_imp] at aligned
        obtain ⟨occupied, off⟩ := aligned
        push Not at off
        exact ⟨_, .misaligned i names realRoom imagRoom occupied off⟩
    · exact ⟨_, .short i names (by omega)⟩
  · exact ⟨_, .unknown fun i names => known ⟨i, names⟩⟩

theorem Hosts.sumWith_eq_iff (hosts : r.Hosts .sumOfPoly p) {input : Slice Single}
    {c : Coefficients Single} {cutoff : Single} {result : Except CallFailure Single} :
    r.sumWith name input c cutoff = result ↔ SumOutcome p name input c cutoff result := by
  constructor
  · rintro rfl
    obtain ⟨result, outcome⟩ := hosts.exists_sumOutcome name input c cutoff
    rw [hosts.eq_of_sumOutcome outcome]
    exact outcome
  · exact hosts.eq_of_sumOutcome

theorem Hosts.splitWith_eq_iff (hosts : r.Hosts .deinterleave p) {real imag : Slice Single}
    {input : Slice (Complex Single)} {result : Except CallFailure (Slice Single × Slice Single)} :
    r.splitWith name real imag input = result ↔ SplitOutcome p name real imag input result := by
  constructor
  · rintro rfl
    obtain ⟨result, outcome⟩ := hosts.exists_splitOutcome name real imag input
    rw [hosts.eq_of_splitOutcome outcome]
    exact outcome
  · exact hosts.eq_of_splitOutcome

/-- Kernels that are run by name do not fault, so a call in place that fails has changed nothing. -/
theorem Hosts.splitWithInPlace_on (hosts : r.Hosts .deinterleave p) (real imag : Slice Single)
    (input : Slice (Complex Single)) :
    (r.splitWithInPlace name input).on (real, imag) =
      match r.splitWith name real imag input with
      | .ok out => (.ok (), out)
      | .error e => (.error e, (real, imag)) := by
  have mirrors := r.splitWithInPlace_mirrors real imag input name
  cases called : r.splitWith name real imag input with
  | ok out => exact mirrors.ok called
  | error e =>
    obtain ⟨failed, kept⟩ := mirrors.error called
    have outcome := hosts.splitWith_eq_iff.mp called
    have unchanged := kept fun f same => by
      subst same
      cases outcome
    exact Prod.ext failed unchanged

end Hosts

section Slots

variable {r : Registry} {contract : Contract} {real imag : Slice Single}
  {input : Slice (Complex Single)}

theorem split_of_short (short : real.size < input.size ∨ imag.size < input.size) :
    r.split contract real imag input = .error (.shortOutputs real.size imag.size input.size) := by
  rw [split, checkOutputs_of_short short]
  rfl

theorem split_ne_short (realRoom : input.size ≤ real.size) (imagRoom : input.size ≤ imag.size)
    (a b n : Nat) : r.split contract real imag input ≠ .error (.shortOutputs a b n) := by
  have room := checkOutputs_eq_ok_iff.mpr ⟨realRoom, imagRoom⟩
  have called : r.split contract real imag input =
      accessed (Deinterleave.run (r.deinterleave.for contract) real imag input) :=
    bind_of_success room _
  rw [called]
  cases Deinterleave.run (r.deinterleave.for contract) real imag input <;> nofun

end Slots

/-- The outcomes of calls by name, each under its exact conditions, in registries however they were
built. All entries of the two lists have the shape that is called for. A call that splits samples in
place and fails leaves both outputs as they were, and so does one through a slot where it panics. -/
theorem named_calls_settled (cpu requested : CapabilitySet) (tables : List Table) (config : Config)
    (r : Registry) (ok : (new cpu tables requested config).outcome = .ok r) :
    (∃ p, r.Hosts .sumOfPoly p ∧ (∀ i ∈ p.implementations, i.sumOfPoly?.isSome = true) ∧
      ∀ name input c cutoff result,
        r.sumWith name input c cutoff = result ↔ SumOutcome p name input c cutoff result) ∧
    (∃ p, r.Hosts .deinterleave p ∧ (∀ i ∈ p.implementations, i.deinterleave?.isSome = true) ∧
      ∀ name real imag input,
        (∀ result, r.splitWith name real imag input = result ↔
          SplitOutcome p name real imag input result) ∧
        (r.splitWithInPlace name input).on (real, imag) =
          match r.splitWith name real imag input with
          | .ok out => (.ok (), out)
          | .error e => (.error e, (real, imag))) ∧
    ∀ contract real imag input,
      if input.size ≤ real.size ∧ input.size ≤ imag.size then
        ∀ a b n, ((r.splitInPlace contract input).on (real, imag)).1 ≠ .error (.shortOutputs a b n)
      else (r.splitInPlace contract input).on (real, imag) =
        (.error (.shortOutputs real.size imag.size input.size), (real, imag)) := by
  have built := built_of_ok ok
  refine ⟨?_, ?_, fun contract real imag input => ?_⟩
  · obtain ⟨p, hosts⟩ := built.exists_host .sumOfPoly
    refine ⟨p, hosts, fun i listed => ?_, fun name input c cutoff result => hosts.sumWith_eq_iff⟩
    exact Implementation.sumOfPoly?_isSome.mpr
      ((hosts.wellFormed.entries i listed).shaped.trans hosts.shaped)
  · obtain ⟨p, hosts⟩ := built.exists_host .deinterleave
    refine ⟨p, hosts, fun i listed => ?_, fun name real imag input =>
      ⟨fun result => hosts.splitWith_eq_iff, hosts.splitWithInPlace_on real imag input⟩⟩
    exact Implementation.deinterleave?_isSome.mpr
      ((hosts.wellFormed.entries i listed).shaped.trans hosts.shaped)
  · have mirrors := r.splitInPlace_mirrors real imag input contract
    split
    · rename_i room
      intro a b n panicked
      cases called : r.split contract real imag input with
      | ok out =>
        rw [mirrors.ok called] at panicked
        cases panicked
      | error e =>
        rw [(mirrors.error called).1] at panicked
        cases panicked
        exact split_ne_short room.1 room.2 a b n called
    · obtain ⟨failed, kept⟩ := mirrors.error (split_of_short (by omega))
      exact Prod.ext failed (kept nofun)

/-- A sum off the boundary of its implementation, and an output that is too short for a group of
samples that the other could hold. -/
theorem named_calls_settled_off_boundary :
    let cpu := CapabilitySet.ofList [.generic, .sse, .sse2, .sse3, .ssse3, .sse41, .avx, .fma]
    let input : Slice Single := ⟨36, #[⟨1⟩]⟩
    let samples : Slice (Complex Single) := ⟨64, .replicate 9 ⟨⟨1⟩, ⟨2⟩⟩⟩
    let real : Slice Single := ⟨192, .replicate 9 ⟨3⟩⟩
    let imag : Slice Single := ⟨256, .replicate 8 ⟨4⟩⟩
    let c : Coefficients Single := ⟨⟨1⟩, ⟨2⟩, ⟨3⟩, ⟨4⟩, ⟨5⟩⟩
    ∃ r, (new cpu Machines.builtin ⟨0xffffffff⟩ {}).outcome = .ok r ∧
      r.sumWith "a_avx" input c ⟨0⟩ = .error (.refused (.misaligned "a_avx" 32)) ∧
      (r.splitWithInPlace "u_avx" samples).on (real, imag) =
        (.error (.shortOutputs 9 8 9), (real, imag)) := by
  intro cpu input samples real imag c
  obtain ⟨r, ok, passed⟩ : ∃ r, (new cpu Machines.builtin ⟨0xffffffff⟩ {}).outcome = .ok r ∧
      (okAnd (·.alignment == 32) (r.implementation "sum_of_poly" "a_avx") &&
        okAnd (fun _ => true) (r.implementation "deinterleave" "u_avx")) = true :=
    exists_of_okAnd (by decide)
  rw [Bool.and_eq_true] at passed
  obtain ⟨⟨p, hosts, -, sums⟩, ⟨q, hosts', -, splits⟩, -⟩ :=
    named_calls_settled cpu ⟨0xffffffff⟩ Machines.builtin {} r ok
  obtain ⟨i, found, boundary⟩ := exists_of_okAnd passed.1
  obtain ⟨j, found', -⟩ := exists_of_okAnd passed.2
  have boundary : i.alignment = 32 := beq_iff_eq.mp boundary
  refine ⟨r, ok, ?_, ?_⟩
  · rw [sums, ← boundary]
    refine .misaligned i (hosts.names_of_found found) (by decide) ?_
    rw [boundary]
    decide
  · obtain ⟨settled, inPlace⟩ := splits "u_avx" real imag samples
    have short := (settled _).mpr (.short j (hosts'.names_of_found found') (.inr (by decide)))
    rw [inPlace, short]
    rfl

end SimdDispatch.Registry
