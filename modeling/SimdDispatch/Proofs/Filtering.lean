import SimdDispatch.Proofs.Priority
import SimdDispatch.Proofs.TableConstruction

/-!
Lists of implementations that a mask filtered. A filtered list keeps its order and its portable last
entry, so it passes every check that the whole one passes, and a search of it is a search of the
whole list with only what the mask has.
-/
namespace SimdDispatch

namespace Primitive

variable {p : Primitive} {mask : CapabilitySet}

theorem mem_filtered {i : Implementation} :
    i ∈ (p.filtered mask).implementations ↔ i ∈ p.implementations ∧ i.required ⊆ mask := by
  simp [filtered]

theorem filtered_filtered (p : Primitive) (a b : CapabilitySet) :
    (p.filtered a).filtered b = p.filtered (a ∩ b) := by
  simp only [filtered, List.filter_filter]
  congr
  funext i
  simp [CapabilitySet.subset_inter_iff, Bool.and_comm]

/-- The entry that needs nothing but the portable capability stays, and stays the last one. -/
theorem getLast?_filtered {last : Implementation} (isLast : p.implementations.getLast? = some last)
    (covered : last.required ⊆ mask) :
    (p.filtered mask).implementations.getLast? = some last := by
  obtain ⟨before, split⟩ := List.getLast?_eq_some_iff.mp isLast
  simp [filtered, split, List.filter_append, covered]

theorem WellFormed.filtered (wellFormed : p.WellFormed) (portable : .generic ∈ mask) :
    (p.filtered mask).WellFormed := by
  obtain ⟨distinct, entries, last, isLast, generic⟩ := wellFormed
  have covered : last.required ⊆ mask := by
    simp only [Implementation.isGeneric, Bool.and_eq_true, decide_eq_true_eq] at generic
    exact CapabilitySet.subset_trans generic.1 portable
  refine ⟨?_, fun i listed => entries i (mem_filtered.mp listed).1, last, ?_, generic⟩
  · exact distinct.sublist (List.filter_sublist.map _)
  · exact getLast?_filtered isLast covered

theorem validate_eq_ok_iff {machine : String} : p.validate machine = .ok () ↔ p.WellFormed := by
  rw [← fault?_eq_none_iff, validate]
  cases p.fault? <;> simp

end Primitive

namespace Catalog

theorem wellFormed {p : Primitive} (listed : p ∈ all) : p.WellFormed := by
  have accepted : ∀ q ∈ all, q.fault? = none := by decide
  exact Primitive.fault?_eq_none_iff.mp (accepted p listed)

theorem filtered_names (mask : CapabilitySet) :
    ((all.map (·.filtered mask)).map (·.name)).Nodup := by
  have distinct : (all.map (·.name)).Nodup := by decide
  rwa [List.map_map]

end Catalog

namespace Table

/-- Of the catalog a table can be made with every mask and boundary that a table may have: all that
the check asks of the primitives is kept by filtering. -/
theorem exists_ofCatalog_iff {name : String} {mask : CapabilitySet} {alignment : Nat} :
    (∃ t, ofCatalog name mask alignment = .ok t) ↔
      alignment.isPowerOfTwo ∧ alignment ≤ maxAlignment ∧ .generic ∈ mask ∧ mask.OnlyKnown := by
  rw [← isPowerOfTwo_iff, ← CapabilitySet.unknown_isEmpty_iff]
  constructor
  · intro made
    have wellFormed := exists_new_iff.mp made
    exact ⟨wellFormed.power, wellFormed.bounded, wellFormed.portable, wellFormed.known⟩
  · rintro ⟨power, bounded, portable, known⟩
    apply exists_new_iff.mpr
    refine ⟨power, bounded, portable, known, Catalog.filtered_names mask, ?_⟩
    simp only [List.forall_mem_map]
    intro p listed
    refine ⟨(Catalog.wellFormed listed).filtered portable, fun i kept => ?_⟩
    exact (Primitive.mem_filtered.mp kept).2

theorem ofCatalog_eq_ok_iff {name : String} {mask : CapabilitySet} {alignment : Nat} {t : Table} :
    ofCatalog name mask alignment = .ok t ↔
      t.name = name ∧ t.mask = mask ∧ t.alignment = alignment ∧
        t.primitives = Catalog.all.map (·.filtered mask) := new_eq_ok_iff

/-- Its list of a catalog primitive, searched, gives what the whole list gives with the mask. -/
theorem resolve_ofCatalog {t : Table} (held : t.primitives = Catalog.all.map (·.filtered t.mask))
    {p : Primitive} (listed : p ∈ Catalog.all) :
    ∃ q, t.primitive p.name = .ok q ∧ ∀ detected boundary,
      q.resolve detected boundary = p.resolve (t.mask ∩ detected) boundary := by
  have member : p.filtered t.mask ∈ t.primitives := by
    rw [held]
    exact List.mem_map_of_mem listed
  exact ⟨p.filtered t.mask, primitive_eq_ok_iff.mpr ⟨member, rfl⟩, p.resolve_filtered t.mask⟩

end Table

namespace Primitive

/-- Filtering twice is filtering once with what both masks have; searching a filtered list is
searching the whole one with less; and what passes its check still does so filtered. So tables are
made of the catalog for every mask and boundary that a table may have, and each of them, as each of
the built-in ones, resolves a primitive as its whole list does with what the table assumes. -/
theorem filtering_commutes (p : Primitive) (a b detected : CapabilitySet) (boundary : Nat) :
    (p.filtered a).filtered b = p.filtered (a ∩ b) ∧
      (p.filtered a).resolve detected boundary = p.resolve (a ∩ detected) boundary ∧
      (∀ machine other, p.validate machine = .ok () → .generic ∈ a →
        (p.filtered a).validate other = .ok ()) ∧
      (∀ name mask alignment, (∃ t, Table.ofCatalog name mask alignment = .ok t) ↔
        alignment.isPowerOfTwo ∧ alignment ≤ 64 ∧ .generic ∈ mask ∧ mask.OnlyKnown) ∧
      ∀ t, (t ∈ Machines.builtin ∨ ∃ name mask alignment, Table.ofCatalog name mask alignment = .ok t) →
        ∀ q ∈ Catalog.all, ∃ list, t.primitive q.name = .ok list ∧ ∀ detected boundary,
          list.resolve detected boundary = q.resolve (t.mask ∩ detected) boundary := by
  refine ⟨p.filtered_filtered a b, p.resolve_filtered a detected boundary, ?_, ?_, ?_⟩
  · intro machine other passed portable
    have wellFormed := validate_eq_ok_iff.mp passed
    exact validate_eq_ok_iff.mpr (wellFormed.filtered portable)
  · intro name mask alignment
    exact Table.exists_ofCatalog_iff
  · rintro t (member | ⟨name, mask, alignment, made⟩) q listed
    · exact Table.resolve_ofCatalog (Machines.builtin_primitives member) listed
    · obtain ⟨-, rfl, -, held⟩ := Table.ofCatalog_eq_ok_iff.mp made
      exact Table.resolve_ofCatalog held listed

/-- A mask that has FMA without AVX, and a table of it that no built-in one is. -/
theorem filtering_commutes_without_avx :
    let mask : CapabilitySet := .ofList [.generic, .sse3, .fma]
    Catalog.sumOfPoly.validate "host" = .ok () ∧ .generic ∈ mask ∧
      (Catalog.sumOfPoly.filtered mask).validate "host" = .ok () ∧
      ∃ t list, Table.ofCatalog "host" mask 64 = .ok t ∧ t ∉ Machines.builtin ∧
        t.primitive "sum_of_poly" = .ok list ∧
        list.resolve ⟨0xffffffff⟩ 32 = Catalog.sumOfPoly.resolve (t.mask ∩ ⟨0xffffffff⟩) 32 := by
  intro mask
  have passed : Catalog.sumOfPoly.validate "host" = .ok () := by decide
  have portable : .generic ∈ mask := by decide
  obtain ⟨-, -, passes, makes, resolves⟩ :=
    filtering_commutes Catalog.sumOfPoly mask mask ⟨0xffffffff⟩ 32
  obtain ⟨t, made⟩ := (makes "host" mask 64).mpr
    ⟨⟨6, rfl⟩, Nat.le_refl 64, portable, CapabilitySet.unknown_isEmpty_iff.mp (by decide)⟩
  have named := (Table.ofCatalog_eq_ok_iff.mp made).1
  obtain ⟨list, found, searched⟩ :=
    resolves t (.inr ⟨"host", mask, 64, made⟩) Catalog.sumOfPoly (by decide)
  refine ⟨passed, portable, passes "host" "host" passed portable, t, list, made, ?_, found, searched _ _⟩
  intro member
  have names : ∀ u ∈ Machines.builtin, u.name ≠ "host" := by decide
  exact names t member named

end Primitive
end SimdDispatch
