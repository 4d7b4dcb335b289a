import SimdDispatch.Proofs.Bindings
import SimdDispatch.Proofs.Registry

/-!
A registry as a view of the resolution it is made of. It adds one demand, that the table holds both
primitives with their shapes; the tables were checked when they were built, so no entry of a list
can belie the shape of its primitive, whichever of them a slot has come to hold.
-/
namespace SimdDispatch

theorem Implementation.sumOfPoly?_isSome {i : Implementation} :
    i.sumOfPoly?.isSome = true ↔ i.shape = .sumOfPoly := by
  unfold sumOfPoly? shape
  cases i.kernel <;> simp [Kernel.shape]

theorem Implementation.deinterleave?_isSome {i : Implementation} :
    i.deinterleave?.isSome = true ↔ i.shape = .deinterleave := by
  unfold deinterleave? shape
  cases i.kernel <;> simp [Kernel.shape]

namespace Table

/-- The primitive that is named for a shape is there and has it. -/
def Holds (t : Table) (shape : Shape) : Prop :=
  ∃ p ∈ t.primitives, p.name = shape.name ∧ p.shape = shape

inductive Lacks (t : Table) (shape : Shape) : TableFault → Prop
  | missing (absent : ∀ p ∈ t.primitives, p.name ≠ shape.name) :
      Lacks t shape (.missingPrimitive shape.name)
  | wrongShape (p : Primitive) (member : p ∈ t.primitives) (named : p.name = shape.name)
      (differs : p.shape ≠ shape) : Lacks t shape (.wrongShape shape.name)

/-- Names differ within a table, so the primitive of a name has one shape. -/
theorem not_holds_iff {t : Table} {shape : Shape} :
    ¬ t.Holds shape ↔ ∃ fault, t.Lacks shape fault := by
  constructor
  · intro unheld
    by_cases declared : ∃ p ∈ t.primitives, p.name = shape.name
    · obtain ⟨p, member, named⟩ := declared
      exact ⟨_, .wrongShape p member named fun shaped => unheld ⟨p, member, named, shaped⟩⟩
    · exact ⟨_, .missing fun p member named => declared ⟨p, member, named⟩⟩
  · rintro ⟨fault, lacks⟩ ⟨p, member, named, shaped⟩
    cases lacks with
    | missing absent => exact absent p member named
    | wrongShape q member' named' differs =>
      have same : q = p :=
        List.inj_on_of_nodup_map t.wellFormed.distinct member' member (named'.trans named.symm)
      exact differs (same ▸ shaped)

end Table

theorem Machines.builtin_holds {t : Table} (member : t ∈ builtin) (shape : Shape) :
    t.Holds shape := by
  have catalogued : ∃ p ∈ Catalog.all, p.name = shape.name ∧ p.shape = shape := by
    cases shape <;> decide
  obtain ⟨p, listed, named, shaped⟩ := catalogued
  refine ⟨p.filtered t.mask, ?_, named, shaped⟩
  rw [builtin_primitives member]
  exact List.mem_map_of_mem listed

namespace Resolution

variable {tables : List Table} {requested : CapabilitySet} {config : Config} {r : Resolution}

theorem Resolved.lookup_eq_none (resolved : Resolved tables requested config r) {name : String}
    (absent : ∀ p ∈ r.table.primitives, p.name ≠ name) : r.bindings.lookup name = none := by
  rw [List.lookup_eq_none_iff]
  intro entry present
  obtain ⟨p, member, named, -⟩ := forall₂_right resolved.bound present
  exact bne_iff_ne.mpr fun same => absent p member (named.symm.trans same.symm)

/-- What is bound has the shape of its primitive, by the checks of the table. -/
theorem Resolved.lookup_eq_some (resolved : Resolved tables requested config r) {p : Primitive}
    (member : p ∈ r.table.primitives) :
    ∃ b, r.bindings.lookup p.name = some b ∧ ∀ contract, (b.for contract).shape = p.shape := by
  obtain ⟨b, found, filled⟩ := resolved.binding member
  have checked := (r.table.wellFormed.primitives p member).wellFormed
  refine ⟨b, ?_, fun contract => (checked.entries _ (filled contract).mem).shaped⟩
  unfold Resolution.binding at found
  split at found
  · rename_i b' looked
    cases found
    exact looked
  · cases found

end Resolution

namespace Registry

section Slots

variable {κ : Type} {shape : Shape} {variant? : Implementation → Option κ}
  (reads : ∀ {i}, (variant? i).isSome = true ↔ i.shape = shape)
  {tables : List Table} {requested : CapabilitySet} {config : Config} {r : Resolution}
  (resolved : Resolution.Resolved tables requested config r)
include reads resolved

theorem slots_of_holds (holds : r.table.Holds shape) : ∃ s, slots r shape variant? = .ok s := by
  obtain ⟨p, member, named, shaped⟩ := holds
  obtain ⟨b, found, shapes⟩ := resolved.lookup_eq_some member
  obtain ⟨a, aligned⟩ := Option.isSome_iff_exists.mp (reads.mpr ((shapes .aligned).trans shaped))
  obtain ⟨u, unaligned⟩ :=
    Option.isSome_iff_exists.mp (reads.mpr ((shapes .unaligned).trans shaped))
  refine ⟨⟨a, u⟩, slots_eq_ok_iff.mpr ⟨b, named ▸ found, fun contract => ?_⟩⟩
  cases contract with
  | aligned => exact aligned
  | unaligned => exact unaligned

theorem slots_of_lacks {fault : TableFault} (lacks : r.table.Lacks shape fault) :
    slots r shape variant? = .error (.invalidTable r.table.name fault) := by
  cases lacks with
  | missing absent => simp only [slots, resolved.lookup_eq_none absent]
  | wrongShape p member named differs =>
    obtain ⟨b, found, shapes⟩ := resolved.lookup_eq_some member
    have unread : variant? b.aligned = none := by
      rw [← Option.not_isSome_iff_eq_none, reads]
      exact fun shaped => differs ((shapes .aligned).symm.trans shaped)
    rw [named] at found
    simp only [slots, found, unread]

end Slots

section Outcome

variable {cpu requested : CapabilitySet} {tables : List Table} {config : Config}

theorem new_of_resolution_error {e : Error}
    (failed : (Resolution.new tables (requested ∩ cpu) config).outcome = .error e) :
    (new cpu tables requested config).outcome = .error e := by
  rw [new_outcome, failed]
  rfl

variable {resolution : Resolution}
  (resolved : (Resolution.new tables (requested ∩ cpu) config).outcome = .ok resolution)
include resolved

theorem new_of_holds (sums : resolution.table.Holds .sumOfPoly)
    (splits : resolution.table.Holds .deinterleave) :
    ∃ r, (new cpu tables requested config).outcome = .ok r ∧ r.resolution = resolution := by
  have facts := Resolution.resolved_of_ok resolved
  obtain ⟨s, first⟩ := slots_of_holds Implementation.sumOfPoly?_isSome facts sums
  obtain ⟨d, second⟩ := slots_of_holds Implementation.deinterleave?_isSome facts splits
  refine ⟨⟨resolution, s, d⟩, ?_, rfl⟩
  rw [new_outcome, resolved]
  change slots resolution .sumOfPoly _ >>= _ = _
  rw [first]
  change slots resolution .deinterleave _ >>= _ = _
  rw [second]
  rfl

/-- Of the two primitives the first that is lacking is blamed. -/
theorem new_of_lacks {shape : Shape} {fault : TableFault} (lacks : resolution.table.Lacks shape fault)
    (first : shape = .deinterleave → resolution.table.Holds .sumOfPoly) :
    (new cpu tables requested config).outcome =
      .error (.invalidTable resolution.table.name fault) := by
  have facts := Resolution.resolved_of_ok resolved
  rw [new_outcome, resolved]
  change slots resolution .sumOfPoly _ >>= _ = _
  cases shape with
  | sumOfPoly =>
    rw [slots_of_lacks Implementation.sumOfPoly?_isSome facts lacks]
    rfl
  | deinterleave =>
    obtain ⟨s, passed⟩ := slots_of_holds Implementation.sumOfPoly?_isSome facts (first rfl)
    rw [passed]
    change slots resolution .deinterleave _ >>= _ = _
    rw [slots_of_lacks Implementation.deinterleave?_isSome facts lacks]
    rfl

end Outcome

theorem withMask_resolution (cpu requested : CapabilitySet) (config : Config) :
    (withMask cpu requested config).outcome.map (·.resolution) =
      (Resolution.withMask (requested ∩ cpu) config).outcome := by
  unfold withMask Resolution.withMask
  cases resolved : (Resolution.new Machines.builtin (requested ∩ cpu) config).outcome with
  | error e =>
    rw [new_of_resolution_error resolved]
    rfl
  | ok resolution =>
    have holds := Machines.builtin_holds (Resolution.resolved_of_ok resolved).chosen.mem
    obtain ⟨r, ok, same⟩ := new_of_holds resolved (holds .sumOfPoly) (holds .deinterleave)
    rw [ok, ← same]
    rfl

/-- A registry is built exactly where the resolution of what its processor has of the request
succeeds with a table that holds both primitives, and then shows that resolution. Otherwise it
fails with the error of the resolution, or blames the selected table for a primitive it lacks; the
built-in tables lack none. -/
theorem new_refines_resolution (cpu requested : CapabilitySet) (tables : List Table)
    (config : Config) :
    ((∃ r, (new cpu tables requested config).outcome = .ok r) ↔
      ∃ resolution, (Resolution.new tables (requested ∩ cpu) config).outcome = .ok resolution ∧
        resolution.table.Holds .sumOfPoly ∧ resolution.table.Holds .deinterleave) ∧
    (∀ r, (new cpu tables requested config).outcome = .ok r →
      ∃ resolution, (Resolution.new tables (requested ∩ cpu) config).outcome = .ok resolution ∧
        r.machine = resolution.table ∧ r.detected = resolution.detected ∧
        r.alignment = resolution.alignment ∧ r.bindings = resolution.bindings) ∧
    (∀ e, (Resolution.new tables (requested ∩ cpu) config).outcome = .error e →
      (new cpu tables requested config).outcome = .error e) ∧
    (∀ resolution, (Resolution.new tables (requested ∩ cpu) config).outcome = .ok resolution →
      ¬ (resolution.table.Holds .sumOfPoly ∧ resolution.table.Holds .deinterleave) →
      ∃ shape fault, resolution.table.Lacks shape fault ∧
        (new cpu tables requested config).outcome =
          .error (.invalidTable resolution.table.name fault)) ∧
    (withMask cpu requested config).outcome.map (·.resolution) =
      (Resolution.withMask (requested ∩ cpu) config).outcome := by
  have shows : ∀ r, (new cpu tables requested config).outcome = .ok r →
      (Resolution.new tables (requested ∩ cpu) config).outcome = .ok r.resolution :=
    fun r ok => (built_of_ok ok).resolved
  have blames : ∀ resolution,
      (Resolution.new tables (requested ∩ cpu) config).outcome = .ok resolution →
      ¬ (resolution.table.Holds .sumOfPoly ∧ resolution.table.Holds .deinterleave) →
      ∃ shape fault, resolution.table.Lacks shape fault ∧
        (new cpu tables requested config).outcome =
          .error (.invalidTable resolution.table.name fault) := by
    intro resolution resolved unheld
    by_cases sums : resolution.table.Holds .sumOfPoly
    · obtain ⟨fault, lacks⟩ := Table.not_holds_iff.mp fun splits => unheld ⟨sums, splits⟩
      exact ⟨.deinterleave, fault, lacks, new_of_lacks resolved lacks fun _ => sums⟩
    · obtain ⟨fault, lacks⟩ := Table.not_holds_iff.mp sums
      exact ⟨.sumOfPoly, fault, lacks, new_of_lacks resolved lacks (by simp)⟩
  refine ⟨⟨?_, ?_⟩, ?_, fun e => new_of_resolution_error, blames, withMask_resolution _ _ _⟩
  · rintro ⟨r, ok⟩
    refine ⟨r.resolution, shows r ok, Classical.not_not.mp fun unheld => ?_⟩
    obtain ⟨_, _, _, failed⟩ := blames r.resolution (shows r ok) unheld
    rw [ok] at failed
    cases failed
  · rintro ⟨resolution, resolved, sums, splits⟩
    obtain ⟨r, ok, -⟩ := new_of_holds resolved sums splits
    exact ⟨r, ok⟩
  · exact fun r ok => ⟨r.resolution, shows r ok, rfl, rfl, rfl, rfl⟩

/-- A table may be well-formed without any primitive, and can then be resolved but not called. -/
example :
    let bare : Table := ⟨"bare", .generic, 1, [], by decide⟩
    (Resolution.new [bare] .generic {}).outcome = .ok ⟨bare, .generic, []⟩ ∧
      (new .generic [bare] .generic {}).outcome.map (·.resolution) =
        .error (.invalidTable "bare" (.missingPrimitive "sum_of_poly")) := by
  decide

end Registry
end SimdDispatch
