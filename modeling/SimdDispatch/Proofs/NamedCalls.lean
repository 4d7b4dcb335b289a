import SimdDispatch.Proofs.Alignment
import SimdDispatch.Proofs.Deinterleave
import SimdDispatch.Proofs.GroupSums
import SimdDispatch.Proofs.RegistryRefinement

/-!
Calls by the name of an implementation. The name is looked up in the one primitive that is named for
the shape of the call, and all that can then go wrong is told by sizes and addresses.
-/
namespace SimdDispatch

namespace Implementation

theorem exists_sumOfPoly {i : Implementation} (shaped : i.shape = .sumOfPoly) :
    ∃ v, i.kernel = .sumOfPoly v ∧ v.boundary ∣ i.alignment := by
  obtain ⟨v, read⟩ := Option.isSome_iff_exists.mp (sumOfPoly?_isSome.mpr shaped)
  have kernel := sumOfPoly?_eq_some_iff.mp read
  have sufficient := i.sufficient
  rw [kernel] at sufficient
  exact ⟨v, kernel, sufficient⟩

theorem exists_deinterleave {i : Implementation} (shaped : i.shape = .deinterleave) :
    ∃ v, i.kernel = .deinterleave v ∧ v.boundary ∣ i.alignment := by
  obtain ⟨v, read⟩ := Option.isSome_iff_exists.mp (deinterleave?_isSome.mpr shaped)
  have kernel := deinterleave?_eq_some_iff.mp read
  have sufficient := i.sufficient
  rw [kernel] at sufficient
  exact ⟨v, kernel, sufficient⟩

end Implementation

namespace Registry

/-- The primitive in which calls of a shape look up names. -/
structure Hosts (r : Registry) (shape : Shape) (p : Primitive) : Prop where
  member : p ∈ r.machine.primitives
  named : p.name = shape.name
  shaped : p.shape = shape

section Built

variable {cpu requested : CapabilitySet} {tables : List Table} {config : Config} {r : Registry}

theorem Built.exists_host (built : Built cpu tables requested config r) (shape : Shape) :
    ∃ p, r.Hosts shape p := by
  have resolved := Resolution.resolved_of_ok built.resolved
  have holds : r.machine.Holds shape := by
    by_contra unheld
    obtain ⟨fault, lacks⟩ := Table.not_holds_iff.mp unheld
    cases shape with
    | sumOfPoly =>
      have failed := slots_of_lacks Implementation.sumOfPoly?_isSome resolved lacks
      rw [built.sumOfPoly] at failed
      cases failed
    | deinterleave =>
      have failed := slots_of_lacks Implementation.deinterleave?_isSome resolved lacks
      rw [built.deinterleave] at failed
      cases failed
  obtain ⟨p, member, named, shaped⟩ := holds
  exact ⟨p, member, named, shaped⟩

end Built

section Hosts

variable {r : Registry} {shape : Shape} {p : Primitive} (hosts : r.Hosts shape p)
include hosts

theorem Hosts.unique {q : Primitive} (member : q ∈ r.machine.primitives)
    (named : q.name = shape.name) : q = p :=
  List.inj_on_of_nodup_map r.machine.wellFormed.distinct member hosts.member
    (named.trans hosts.named.symm)

theorem Hosts.wellFormed : p.WellFormed :=
  (r.machine.wellFormed.primitives p hosts.member).wellFormed

theorem Hosts.implementation (name : String) :
    r.implementation shape.name name =
      match p.find? name with
      | some i => .ok i
      | none => .error (.unknownImplementation shape.name name) := by
  have looked : r.machine.primitive shape.name = .ok p :=
    Table.primitive_eq_ok_iff.mpr ⟨hosts.member, hosts.named⟩
  exact bind_of_success looked _

variable {κ : Type} {variant? : Implementation → Option κ}

theorem Hosts.named_of_unknown {name : String} (unknown : ∀ i ∈ p.implementations, i.name ≠ name) :
    r.named shape variant? name = .error (.refused (.unknownImplementation shape.name name)) := by
  have missing : p.find? name = none := by
    rw [Primitive.find?, List.find?_eq_none]
    intro i listed
    simpa using unknown i listed
  have looked := hosts.implementation name
  rw [missing] at looked
  rw [Registry.named, looked]
  rfl

theorem Hosts.named_of_mem (reads : ∀ {i}, (variant? i).isSome = true ↔ i.shape = shape)
    {i : Implementation} (listed : i ∈ p.implementations) :
    ∃ kernel, variant? i = some kernel ∧ r.named shape variant? i.name = .ok (i, kernel) := by
  have found : p.find? i.name = some i :=
    (find?_name_eq_some_iff _ hosts.wellFormed.distinct).mpr ⟨listed, rfl⟩
  have shaped : i.shape = shape := (hosts.wellFormed.entries i listed).shaped.trans hosts.shaped
  obtain ⟨kernel, read⟩ := Option.isSome_iff_exists.mp (reads.mpr shaped)
  have looked : refusing (r.implementation shape.name i.name) = .ok i := by
    rw [hosts.implementation, found]
    rfl
  refine ⟨kernel, read, (bind_of_success looked _).trans ?_⟩
  simp only [read]
  rfl

end Hosts

theorem accessed_eq_ok_iff {α : Type} {x : Except AccessFault α} {a : α} :
    accessed x = .ok a ↔ x = .ok a := by
  cases x <;> simp [accessed]

theorem checkAlignment_eq_ok_iff {i : Implementation} (power : isPowerOfTwo i.alignment = true)
    {addresses : List Nat} {size : Nat} :
    checkAlignment i addresses (size == 0) = .ok () ↔
      (size ≠ 0 → ∀ a ∈ addresses, i.alignment ∣ a) := by
  have passes : (size == 0 || addresses.all (SimdDispatch.isAligned · i.alignment)) = true ↔
      (size ≠ 0 → ∀ a ∈ addresses, i.alignment ∣ a) := by
    simp [isAligned_iff power, or_iff_not_imp_left]
  rw [← passes, checkAlignment]
  split <;> simp_all

theorem checkOutputs_eq_ok_iff {real imag : Slice Single} {input : Slice (Complex Single)} :
    checkOutputs real imag input = .ok () ↔ input.size ≤ real.size ∧ input.size ≤ imag.size := by
  unfold checkOutputs
  split <;> simp_all

section Calls

variable {r : Registry} {shape : Shape} {p : Primitive} {name : String}

theorem Hosts.named_eq_ok_iff (hosts : r.Hosts shape p) {κ : Type}
    {variant? : Implementation → Option κ}
    (reads : ∀ {i}, (variant? i).isSome = true ↔ i.shape = shape) {i : Implementation} {kernel : κ} :
    r.named shape variant? name = .ok (i, kernel) ↔
      i ∈ p.implementations ∧ i.name = name ∧ variant? i = some kernel := by
  by_cases known : ∃ j ∈ p.implementations, j.name = name
  · obtain ⟨j, listed, rfl⟩ := known
    obtain ⟨k, read, found⟩ := hosts.named_of_mem reads listed
    rw [found]
    constructor
    · intro same
      cases same
      exact ⟨listed, rfl, read⟩
    · rintro ⟨listed', same, read'⟩
      have one : i = j :=
        List.inj_on_of_nodup_map hosts.wellFormed.distinct listed' listed same
      subst one
      rw [read] at read'
      cases read'
      rfl
  · have unknown : ∀ j ∈ p.implementations, j.name ≠ name :=
      fun j listed same => known ⟨j, listed, same⟩
    rw [hosts.named_of_unknown unknown]
    simp only [reduceCtorEq, false_iff]
    rintro ⟨listed, same, -⟩
    exact unknown i listed same

theorem Hosts.sumWith_eq_ok_iff (hosts : r.Hosts .sumOfPoly p) {input : Slice Single}
    {c : Coefficients Single} {cutoff value : Single} :
    r.sumWith name input c cutoff = .ok value ↔
      ∃ i ∈ p.implementations, i.name = name ∧ (input.size ≠ 0 → i.alignment ∣ input.address) ∧
        ∃ v, i.kernel = .sumOfPoly v ∧ SumOfPoly.run v input c cutoff = .ok value := by
  have reads := @Implementation.sumOfPoly?_isSome
  constructor
  · intro ok
    obtain ⟨⟨i, v⟩, found, ok⟩ := bind_success ok
    obtain ⟨listed, named, read⟩ := (hosts.named_eq_ok_iff reads).mp found
    obtain ⟨⟨⟩, checked, ok⟩ := bind_success ok
    have power := (hosts.wellFormed.entries i listed).power
    have aligned := (checkAlignment_eq_ok_iff power).mp checked
    exact ⟨i, listed, named, fun occupied => aligned occupied _ List.mem_cons_self, v,
      Implementation.sumOfPoly?_eq_some_iff.mp read, accessed_eq_ok_iff.mp ok⟩
  · rintro ⟨i, listed, named, aligned, v, kernel, ran⟩
    have read := Implementation.sumOfPoly?_eq_some_iff.mpr kernel
    have found := (hosts.named_eq_ok_iff reads).mpr ⟨listed, named, read⟩
    have power := (hosts.wellFormed.entries i listed).power
    have checked : checkAlignment i [input.address] (input.size == 0) = .ok () := by
      rw [checkAlignment_eq_ok_iff power]
      intro occupied a same
      rw [List.mem_singleton.mp same]
      exact aligned occupied
    refine (bind_of_success found _).trans ((bind_of_success checked _).trans ?_)
    exact accessed_eq_ok_iff.mpr ran

theorem Hosts.splitWith_eq_ok_iff (hosts : r.Hosts .deinterleave p) {real imag : Slice Single}
    {input : Slice (Complex Single)} {out : Slice Single × Slice Single} :
    r.splitWith name real imag input = .ok out ↔
      ∃ i ∈ p.implementations, i.name = name ∧ input.size ≤ real.size ∧ input.size ≤ imag.size ∧
        (input.size ≠ 0 → ∀ a ∈ [input.address, real.address, imag.address], i.alignment ∣ a) ∧
        ∃ v, i.kernel = .deinterleave v ∧ Deinterleave.run v real imag input = .ok out := by
  have reads := @Implementation.deinterleave?_isSome
  constructor
  · intro ok
    obtain ⟨⟨i, v⟩, found, ok⟩ := bind_success ok
    obtain ⟨listed, named, read⟩ := (hosts.named_eq_ok_iff reads).mp found
    obtain ⟨⟨⟩, room, ok⟩ := bind_success ok
    obtain ⟨realRoom, imagRoom⟩ := checkOutputs_eq_ok_iff.mp room
    obtain ⟨⟨⟩, checked, ok⟩ := bind_success ok
    have power := (hosts.wellFormed.entries i listed).power
    exact ⟨i, listed, named, realRoom, imagRoom, (checkAlignment_eq_ok_iff power).mp checked, v,
      Implementation.deinterleave?_eq_some_iff.mp read, accessed_eq_ok_iff.mp ok⟩
  · rintro ⟨i, listed, named, realRoom, imagRoom, aligned, v, kernel, ran⟩
    have read := Implementation.deinterleave?_eq_some_iff.mpr kernel
    have found := (hosts.named_eq_ok_iff reads).mpr ⟨listed, named, read⟩
    have room := checkOutputs_eq_ok_iff.mpr ⟨realRoom, imagRoom⟩
    have power := (hosts.wellFormed.entries i listed).power
    have checked := (checkAlignment_eq_ok_iff power).mpr aligned
    refine (bind_of_success found _).trans ((bind_of_success room _).trans ?_)
    refine (bind_of_success checked _).trans ?_
    exact accessed_eq_ok_iff.mpr ran

end Calls

end Registry
end SimdDispatch
