import SimdDispatch.Proofs.Bindings

/-!
Capabilities that no machine table mentions. Two processors that differ in nothing else are given
the same table and the same implementations, or refused with the same error.
-/
namespace SimdDispatch

/-- Every capability that some table assumes. -/
def Machines.mentioned (tables : List Table) : CapabilitySet :=
  tables.foldr (fun t s => t.mask ∪ s) ∅

theorem Machines.mask_subset_mentioned {tables : List Table} {t : Table} (member : t ∈ tables) :
    t.mask ⊆ mentioned tables := by
  induction tables with
  | nil => cases member
  | cons u rest ih =>
    rw [CapabilitySet.subset_iff]
    intro i set
    change (u.mask ∪ mentioned rest).testBit i = true
    rw [CapabilitySet.testBit_union, Bool.or_eq_true]
    rcases List.mem_cons.mp member with rfl | later
    · exact .inl set
    · exact .inr (CapabilitySet.subset_iff.mp (ih later) i set)

namespace Resolution

/-- Equal errors, or resolutions that differ at most in the capabilities they report. -/
inductive SameDispatch : Except Error Resolution → Except Error Resolution → Prop
  | refused (e : Error) : SameDispatch (.error e) (.error e)
  | resolved (r s : Resolution) (table : r.table = s.table) (bindings : r.bindings = s.bindings) :
      SameDispatch (.ok r) (.ok s)

theorem bindings_unique {t : Table} {config : Config} {first second : List (String × Binding)}
    (left : List.Forall₂ (Bound t config) t.primitives first)
    (right : List.Forall₂ (Bound t config) t.primitives second) : first = second := by
  have unique : Relator.RightUnique fun p entry => p ∈ t.primitives ∧ Bound t config p entry := by
    rintro p ⟨name, a, u⟩ ⟨name', a', u'⟩ ⟨member, named, filled⟩ ⟨-, named', filled'⟩
    have wellFormed := (t.wellFormed.primitives p member).wellFormed
    have same : name = name' := named.trans named'.symm
    have aligned : a = a' := (filled .aligned).unique wellFormed (filled' .aligned)
    have unaligned : u = u' := (filled .unaligned).unique wellFormed (filled' .unaligned)
    rw [same, aligned, unaligned]
  have held : ∀ p ∈ t.primitives, p ∈ t.primitives := fun _ member => member
  exact unique.forall₂ ((List.forall₂_and_left _ _).mpr ⟨held, left⟩)
    ((List.forall₂_and_left _ _).mpr ⟨held, right⟩)

section Agreement

variable {tables : List Table} {first second : CapabilitySet} {config : Config}
  (agree : ∀ t ∈ tables, t.mask \ first = t.mask \ second)
include agree

theorem runs_congr {t : Table} (member : t ∈ tables) : t.mask ⊆ first ↔ t.mask ⊆ second := by
  rw [CapabilitySet.subset_iff_sdiff_eq_empty, CapabilitySet.subset_iff_sdiff_eq_empty,
    agree t member]

theorem Chosen.congr {t : Table} (chosen : Chosen tables first config t) :
    Chosen tables second config t := by
  have runs {u} := runs_congr agree (t := u)
  cases chosen with
  | pinned name pin member named ran => exact .pinned name pin member named ((runs member).mp ran)
  | best unpinned best =>
    have member := best.mem
    obtain ⟨before, after, split, ran, fewer, most⟩ := best
    refine .best unpinned ⟨before, after, split, (runs member).mp ran, ?_, ?_⟩
    · intro u early also
      exact fewer u early ((runs (by simp [split, early])).mpr also)
    · intro u late also
      exact most u late ((runs (by simp [split, late])).mpr also)

theorem chooseTable_congr (accepted : Machines.validate tables = .ok ())
    (portable : .generic ∈ first) (portable' : .generic ∈ second) :
    chooseTable tables first config = chooseTable tables second config := by
  cases chose : chooseTable tables first config with
  | ok t =>
    have chosen := (chooseTable_eq_ok_iff accepted).mp chose
    exact ((chooseTable_eq_ok_iff accepted).mpr (chosen.congr agree)).symm
  | error e =>
    obtain ⟨name, pin, refused⟩ := (chooseTable_eq_error_iff accepted portable).mp chose
    symm
    rw [chooseTable_eq_error_iff accepted portable']
    refine ⟨name, pin, ?_⟩
    rcases refused with absent | ⟨t, member, named, lacking, rfl⟩
    · exact .inl absent
    · have lacking' : ¬ t.mask ⊆ second := fun ran => lacking ((runs_congr agree member).mpr ran)
      exact .inr ⟨t, member, named, lacking', by rw [agree t member]⟩

end Agreement

/-- Bits that no table mentions, of known capabilities or of none, decide nothing: neither the
table, nor an implementation, nor an error or the capabilities it says are missing. -/
theorem new_ignores_unmentioned (tables : List Table) (config : Config)
    (first second : CapabilitySet)
    (agree : first ∩ Machines.mentioned tables = second ∩ Machines.mentioned tables) :
    SameDispatch (new tables first config).outcome (new tables second config).outcome := by
  rcases ready_or_refused tables config with ⟨valid, accepted⟩ | ⟨e, refused⟩
  · have lack : ∀ t ∈ tables,
        t.mask \ config.remaining first = t.mask \ config.remaining second := by
      intro t member
      have inside := Machines.mask_subset_mentioned member
      exact CapabilitySet.sdiff_eq_of_inter_eq inside (config.remaining_inter_eq agree)
    have same : chooseTable tables (config.remaining first) config =
        chooseTable tables (config.remaining second) config :=
      chooseTable_congr lack accepted (Config.generic_mem_remaining valid first)
        (Config.generic_mem_remaining valid second)
    cases chose : chooseTable tables (config.remaining first) config with
    | error e =>
      have chose' := same.symm.trans chose
      rw [new_of_unchosen valid accepted chose, new_of_unchosen valid accepted chose']
      exact .refused e
    | ok t =>
      have chosen := (chooseTable_eq_ok_iff accepted).mp chose
      obtain ⟨bindings, bound, settled⟩ := new_of_chosen valid accepted chosen
      obtain ⟨bindings', bound', settled'⟩ := new_of_chosen valid accepted (chosen.congr lack)
      rw [settled, settled', bindings_unique bound bound']
      -- From here the two runs can only fail by the overrides, which no capability enters.
      cases overridesFault? t config with
      | some e => exact .refused e
      | none => exact .resolved _ _ rfl rfl
  · rw [refused first, refused second]
    exact .refused e

/-- All that the tables mention, with and without every other bit; a capability that none of them
mentions is taken away as well. -/
theorem new_ignores_unmentioned_bits :
    let config : Config := {
      disabled := ["neon"], overrides := .ofList [("deinterleave", { unaligned := "generic" })] }
    (⟨0x17f⟩ : CapabilitySet) ∩ Machines.mentioned Machines.builtin =
        ⟨0xffffffff⟩ ∩ Machines.mentioned Machines.builtin ∧
      ∃ r s, (new Machines.builtin ⟨0x17f⟩ config).outcome = .ok r ∧
        (new Machines.builtin ⟨0xffffffff⟩ config).outcome = .ok s ∧ r.detected ≠ s.detected ∧
        r.table = s.table ∧ r.bindings = s.bindings := by
  intro config
  have agree : (⟨0x17f⟩ : CapabilitySet) ∩ Machines.mentioned Machines.builtin =
      ⟨0xffffffff⟩ ∩ Machines.mentioned Machines.builtin := by decide
  have same := new_ignores_unmentioned Machines.builtin config _ _ agree
  obtain ⟨r, ok, few⟩ : ∃ r, (new Machines.builtin ⟨0x17f⟩ config).outcome = .ok r ∧
      (r.detected == ⟨0x17f⟩) = true := exists_of_okAnd (by decide)
  obtain ⟨s, ok', many⟩ : ∃ s, (new Machines.builtin ⟨0xffffffff⟩ config).outcome = .ok s ∧
      (s.detected == ⟨0xfffffbff⟩) = true := exists_of_okAnd (by decide)
  rw [beq_iff_eq] at few many
  rw [ok, ok'] at same
  cases same with
  | resolved _ _ table bindings =>
    exact ⟨agree, r, s, ok, ok', by rw [few, many]; decide, table, bindings⟩

end Resolution
end SimdDispatch
