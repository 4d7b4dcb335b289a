import SimdDispatch.Proofs.Priority

/-!
Resolutions on processors of which one has all that the other has. A configuration can only lower
the table, against the default one on the same processor or a richer one. Over the built-in tables
the boundary and every bound implementation follow the table, so none of them gets worse either.
-/
namespace SimdDispatch

/-- A configuration that takes less away from a processor with more leaves more of it. -/
theorem Config.remaining_mono {c d : Config} {given richer : CapabilitySet}
    (unforced : d.forceGeneric = false) (portable : .generic ∉ d.taken) (fewer : d.taken ⊆ c.taken)
    (inside : given ⊆ richer) : c.remaining given ⊆ d.remaining richer := by
  have left : d.remaining richer = (richer ∪ .generic) \ d.taken := by simp [remaining, unforced]
  rw [left]
  unfold remaining
  split
  · exact CapabilitySet.only_subset (CapabilitySet.mem_sdiff.mpr
      ⟨CapabilitySet.mem_union.mpr (.inr (CapabilitySet.mem_only.mpr rfl)), portable⟩)
  · exact CapabilitySet.sdiff_mono (CapabilitySet.union_mono_left inside _) fewer

theorem Config.preferred_of_empty {c : Config} (empty : c.overrides = ∅) (primitive : String)
    (contract : Contract) : c.preferred primitive contract = none := by
  rw [preferred, empty]
  cases contract <;> rfl

/-- Among the built-in tables more capabilities are all capabilities of the other, and more, and no
smaller a boundary: no two of them are apart. -/
theorem Machines.builtin_ranked : ∀ t ∈ builtin, ∀ u ∈ builtin, t.mask.card ≤ u.mask.card →
    t.mask ⊆ u.mask ∧ t.alignment ≤ u.alignment := by decide

theorem Table.boundary_mono {t u : Table} (le : t.alignment ≤ u.alignment) (contract : Contract) :
    t.boundary contract ≤ u.boundary contract := by
  cases contract with
  | aligned => exact le
  | unaligned => exact Nat.le_refl 1

namespace Resolution

section Choice

variable {tables : List Table} {config : Config}

/-- However a table was chosen, with less it has no more capabilities than the best one with more. -/
theorem Chosen.card_le {fewer more : CapabilitySet} {t u : Table}
    (chosen : Chosen tables fewer config t) (inside : fewer ⊆ more)
    (best : Machines.Best tables more u) : t.mask.card ≤ u.mask.card :=
  best.card_le chosen.mem (CapabilitySet.subset_trans chosen.runs inside)

theorem overridesFault?_of_empty (t : Table) (empty : config.overrides = ∅) :
    overridesFault? t config = none := by
  have keys : config.overrides.keys = [] := by rw [empty]; rfl
  simp [overridesFault?, keys, preferencesFault?, Config.preferred_of_empty empty,
    Primitive.preferenceFault?]

/-- With neither a pin nor overrides nothing is left that could fail. -/
theorem exists_new_of_unhindered (valid : config.validate = .ok ())
    (accepted : Machines.validate tables = .ok ()) (unpinned : config.machine = none)
    (empty : config.overrides = ∅) (requested : CapabilitySet) :
    ∃ r, (new tables requested config).outcome = .ok r ∧
      Machines.Best tables (config.remaining requested) r.table := by
  obtain ⟨t, best⟩ :=
    Machines.exists_best accepted (Config.generic_mem_remaining valid requested)
  obtain ⟨bindings, -, settled⟩ := new_of_chosen valid accepted (.best unpinned best)
  rw [overridesFault?_of_empty t empty] at settled
  exact ⟨_, settled, best⟩

end Choice

/-- What the default configuration selects grows with the processor, and bounds what any other one
selects there, be it by a pin, by capabilities taken away or by forcing the portable one. -/
theorem new_selects_at_most_default (tables : List Table)
    (accepted : Machines.validate tables = .ok ()) {given richer : CapabilitySet}
    (inside : given ⊆ richer) :
    ∃ usual most, (new tables given {}).outcome = .ok usual ∧
      (new tables richer {}).outcome = .ok most ∧
      usual.table.mask.card ≤ most.table.mask.card ∧
      ∀ config r, (new tables given config).outcome = .ok r →
        r.table.mask.card ≤ usual.table.mask.card ∧ r.table.mask.card ≤ most.table.mask.card := by
  have valid : ({} : Config).validate = .ok () := rfl
  obtain ⟨usual, ok, best⟩ := exists_new_of_unhindered valid accepted rfl rfl given
  obtain ⟨most, ok', best'⟩ := exists_new_of_unhindered valid accepted rfl rfl richer
  have lowered {config : Config} {r : Resolution} (made : (new tables given config).outcome = .ok r)
      {more : CapabilitySet} (within : given ⊆ more) {t : Table}
      (leads : Machines.Best tables (Config.remaining {} more) t) :
      r.table.mask.card ≤ t.mask.card := by
    have resolved := resolved_of_ok made
    have fewer : r.detected ⊆ Config.remaining {} more := by
      rw [resolved.detected]
      exact Config.remaining_mono rfl (by decide) (CapabilitySet.empty_subset _) within
    exact resolved.chosen.card_le fewer leads
  exact ⟨usual, most, ok, ok', lowered ok inside best', fun config r made =>
    ⟨lowered made (CapabilitySet.subset_refl given) best, lowered made inside best'⟩⟩

/-- A pin below what is left of a processor without AVX, which has FMA all the same. -/
theorem new_selects_at_most_default_without_avx :
    let given : CapabilitySet := .ofList [.generic, .sse, .sse2, .sse3, .fma]
    let config : Config := { machine := " sse ", disabled := ["F.mA"] }
    Machines.validate Machines.builtin = .ok () ∧ given ⊆ ⟨0xffffffff⟩ ∧
      ∃ usual most r, (new Machines.builtin given {}).outcome = .ok usual ∧
        (new Machines.builtin ⟨0xffffffff⟩ {}).outcome = .ok most ∧
        (new Machines.builtin given config).outcome = .ok r ∧ r.table.name = "sse" ∧
        r.table.mask.card ≤ usual.table.mask.card ∧
        usual.table.mask.card ≤ most.table.mask.card := by
  intro given config
  have accepted : Machines.validate Machines.builtin = .ok () := by decide
  have inside : given ⊆ ⟨0xffffffff⟩ := by decide
  obtain ⟨r, ok, named⟩ : ∃ r, (new Machines.builtin given config).outcome = .ok r ∧
      (r.table.name == "sse") = true := exists_of_okAnd (by decide)
  obtain ⟨usual, most, lesser, greater, grows, bounds⟩ :=
    new_selects_at_most_default Machines.builtin accepted inside
  exact ⟨accepted, inside, usual, most, r, lesser, greater, ok, by simpa using named,
    (bounds config r ok).1, grows⟩

/-- A slot of a built-in table holds what a search of the whole catalog finds with what the table
assumes: the mask that filtered the table's list covers all that is left in it. -/
theorem Resolved.builtin_binding {requested : CapabilitySet} {config : Config} {r : Resolution}
    (resolved : Resolved Machines.builtin requested config r) (empty : config.overrides = ∅)
    {p : Primitive} (listed : p ∈ Catalog.all) :
    ∃ b, r.binding p.name = .ok b ∧ ∀ contract,
      p.resolve r.table.mask (r.table.boundary contract) = some (b.for contract) := by
  have member : p.filtered r.table.mask ∈ r.table.primitives := by
    rw [Machines.builtin_primitives resolved.chosen.mem]
    exact List.mem_map_of_mem listed
  have covered := (r.table.wellFormed.primitives _ member).covered
  obtain ⟨b, found, filled⟩ := resolved.binding member
  refine ⟨b, found, fun contract => ?_⟩
  have unasked := filled contract
  rw [Config.preferred_of_empty empty] at unasked
  have searched := unasked.resolve covered
  rwa [Primitive.resolve_filtered, CapabilitySet.inter_self] at searched

theorem Resolved.builtin_names {requested : CapabilitySet} {config : Config} {r : Resolution}
    (resolved : Resolved Machines.builtin requested config r) :
    r.bindings.map (·.1) = Catalog.all.map (·.name) := by
  rw [resolved.names, Machines.builtin_primitives resolved.chosen.mem, List.map_map]
  rfl

/-- What is bound for a primitive by the first resolution, and by the second at no later place. -/
def NoLater (r s : Resolution) (p : Primitive) : Prop :=
  ∃ b c, r.binding p.name = .ok b ∧ s.binding p.name = .ok c ∧ ∀ contract,
    b.for contract ∈ p.implementations ∧ c.for contract ∈ p.implementations ∧
      p.place (c.for contract) ≤ p.place (b.for contract)

theorem Resolved.noLater {given richer : CapabilitySet} {config config' : Config}
    {r s : Resolution} (first : Resolved Machines.builtin given config r)
    (second : Resolved Machines.builtin richer config' s) (empty : config.overrides = ∅)
    (empty' : config'.overrides = ∅) (covers : r.table.mask ⊆ s.table.mask)
    (wider : r.alignment ≤ s.alignment) {p : Primitive} (listed : p ∈ Catalog.all) :
    NoLater r s p := by
  obtain ⟨b, found, slots⟩ := first.builtin_binding empty listed
  obtain ⟨c, found', slots'⟩ := second.builtin_binding empty' listed
  refine ⟨b, c, found, found', fun contract => ?_⟩
  obtain ⟨i, searched, place⟩ := Primitive.resolve_no_later covers
    (Table.boundary_mono wider contract) (slots contract)
  rw [slots' contract, Option.some.injEq] at searched
  exact ⟨List.mem_of_find?_eq_some (slots contract), List.mem_of_find?_eq_some (slots' contract),
    searched ▸ place⟩

/-- Over the built-in tables neither more capabilities nor fewer of them taken away ever cost
anything: the boundary is no smaller, and in both slots of every primitive stands an implementation
at the same place of the catalog's list or an earlier one. -/
theorem withMask_no_worse (given richer : CapabilitySet) (inside : given ⊆ richer)
    (disabled disabled' : List String) (taken taken' : CapabilitySet)
    (valid : ({ disabled := disabled } : Config).validate = .ok ())
    (valid' : ({ disabled := disabled' } : Config).validate = .ok ())
    (read : CapabilitySet.ofNames disabled = .ok taken)
    (read' : CapabilitySet.ofNames disabled' = .ok taken') (fewer : taken' ⊆ taken) :
    ∃ r s, (withMask given { disabled := disabled }).outcome = .ok r ∧
      (withMask richer { disabled := disabled' }).outcome = .ok s ∧ r.alignment ≤ s.alignment ∧
      r.bindings.map (·.1) = Catalog.all.map (·.name) ∧
      s.bindings.map (·.1) = Catalog.all.map (·.name) ∧ ∀ p ∈ Catalog.all, NoLater r s p := by
  have accepted : Machines.validate Machines.builtin = .ok () := by decide
  obtain ⟨r, ok, best⟩ := exists_new_of_unhindered valid accepted rfl rfl given
  obtain ⟨s, ok', best'⟩ := exists_new_of_unhindered valid' accepted rfl rfl richer
  have first := resolved_of_ok ok
  have second := resolved_of_ok ok'
  obtain rfl := CapabilitySet.ofNames_eq_ok read
  obtain rfl := CapabilitySet.ofNames_eq_ok read'
  have kept := (Config.validate_eq_ok_iff.mp valid').2.1
  have more : r.detected ⊆ ({ disabled := disabled' } : Config).remaining richer := by
    rw [first.detected]
    exact Config.remaining_mono rfl kept fewer inside
  obtain ⟨covers, wider⟩ := Machines.builtin_ranked r.table best.mem s.table best'.mem
    (first.chosen.card_le more best')
  exact ⟨r, s, ok, ok', wider, first.builtin_names, second.builtin_names,
    fun p listed => first.noLater second rfl rfl covers wider listed⟩

/-- FMA without AVX and bits of no known capability, against a processor with every bit set; both
lose FMA and only the lesser one SSE3. -/
theorem withMask_no_worse_without_avx :
    let given : CapabilitySet := ⟨0x8000010f⟩
    let richer : CapabilitySet := ⟨0xffffffff⟩
    given ⊆ richer ∧
      ({ disabled := ["sse3", "F.mA"] } : Config).validate = .ok () ∧
      ({ disabled := [" fma"] } : Config).validate = .ok () ∧
      CapabilitySet.ofNames ["sse3", "F.mA"] = .ok (.ofList [.sse3, .fma]) ∧
      CapabilitySet.ofNames [" fma"] = .ok (.only .fma) ∧
      (.only .fma : CapabilitySet) ⊆ .ofList [.sse3, .fma] ∧
      ∃ r s, (withMask given { disabled := ["sse3", "F.mA"] }).outcome = .ok r ∧
        (withMask richer { disabled := [" fma"] }).outcome = .ok s ∧
        r.table.name = "sse" ∧ s.table.name = "avx" ∧ r.alignment ≤ s.alignment ∧
        ∀ p ∈ Catalog.all, NoLater r s p := by
  intro given richer
  have inside : given ⊆ richer := by decide
  have valid : ({ disabled := ["sse3", "F.mA"] } : Config).validate = .ok () := by decide
  have valid' : ({ disabled := [" fma"] } : Config).validate = .ok () := by decide
  have read : CapabilitySet.ofNames ["sse3", "F.mA"] = .ok (.ofList [.sse3, .fma]) := by decide
  have read' : CapabilitySet.ofNames [" fma"] = .ok (.only .fma) := by decide
  have fewer : (.only .fma : CapabilitySet) ⊆ .ofList [.sse3, .fma] := by decide
  obtain ⟨r, s, ok, ok', wider, -, -, later⟩ :=
    withMask_no_worse given richer inside _ _ _ _ valid valid' read read' fewer
  have sse : okAnd (·.table.name == "sse")
      (withMask given { disabled := ["sse3", "F.mA"] }).outcome = true := by decide
  have avx : okAnd (·.table.name == "avx")
      (withMask richer { disabled := [" fma"] }).outcome = true := by decide
  rw [ok] at sse
  rw [ok'] at avx
  exact ⟨inside, valid, valid', read, read', fewer, r, s, ok, ok', beq_iff_eq.mp sse,
    beq_iff_eq.mp avx, wider, later⟩

end Resolution
end SimdDispatch
