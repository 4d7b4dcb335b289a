import SimdDispatch.Proofs.CapabilityNames

/-!
Lists of names read as sets of capabilities. A list comes to what its names spell, whatever their
order and number, and the names of a set come to what is known of it.
-/
namespace SimdDispatch

theorem Capability.spelledBy_name {c d : Capability} : c.SpelledBy d.name ↔ c = d := by
  have itself : ofName? d.name = some d := by cases d <;> rfl
  rw [← ofName?_eq_some_iff, itself, Option.some_inj, eq_comm]

namespace CapabilitySet

theorem ofList_append (cs ds : List Capability) : ofList (cs ++ ds) = ofList cs ∪ ofList ds := by
  apply testBit_ext
  intro i
  rw [Bool.eq_iff_iff, testBit_union, Bool.or_eq_true]
  simp only [testBit_ofList, List.mem_append, or_and_right, exists_or]

/-- A list that is read gives what its names spell, and no other bit. -/
theorem ofNames_eq_ok_iff_members {names : List String} {s : CapabilitySet} :
    ofNames names = .ok s ↔
      (∀ n ∈ names, ∃ c : Capability, c.SpelledBy n) ∧
        (∀ c : Capability, c ∈ s ↔ ∃ n ∈ names, c.SpelledBy n) ∧ s.OnlyKnown := by
  have members : ∀ c, c ∈ ofList (names.filterMap Capability.ofName?) ↔
      ∃ n ∈ names, c.SpelledBy n := by
    intro c
    simp only [mem_ofList, List.mem_filterMap, Capability.ofName?_eq_some_iff]
  rw [ofNames_eq_ok_iff]
  apply and_congr_right
  intro
  constructor
  · rintro rfl
    exact ⟨members, onlyKnown_ofList _⟩
  · rintro ⟨spelled, known⟩
    exact (onlyKnown_ofList _).ext known fun c => (members c).trans (spelled c).symm

/-- The error of a list is that of the first name that spells nothing. -/
theorem ofNames_eq_error_iff {names : List String} {e : Error} :
    ofNames names = .error e ↔
      ∃ before n after, names = before ++ n :: after ∧
        (∀ m ∈ before, ∃ c : Capability, c.SpelledBy m) ∧
        (∀ c : Capability, ¬ c.SpelledBy n) ∧ e = .unknownCapability n := by
  rw [ofNames_eq_settle, settle_eq_error_iff, List.findSome?_eq_some_iff]
  simp only [unreadable?_eq_none_iff, unreadable?_eq_some_iff]
  constructor
  · rintro ⟨before, n, after, split, ⟨unread, error⟩, readable⟩
    exact ⟨before, n, after, split, readable, unread, error⟩
  · rintro ⟨before, n, after, split, readable, unread, error⟩
    exact ⟨before, n, after, split, ⟨unread, error⟩, readable⟩

theorem exists_ofNames_error_iff {names : List String} :
    (∃ e, ofNames names = .error e) ↔ ∃ n ∈ names, ∀ c : Capability, ¬ c.SpelledBy n := by
  constructor
  · rintro ⟨e, failed⟩
    obtain ⟨before, n, after, rfl, -, unread, -⟩ := ofNames_eq_error_iff.mp failed
    exact ⟨n, by simp, unread⟩
  · rintro ⟨n, member, unread⟩
    cases read : ofNames names with
    | error e => exact ⟨e, rfl⟩
    | ok s =>
      obtain ⟨c, spelled⟩ := (ofNames_eq_ok_iff.mp read).1 n member
      exact absurd spelled (unread c)

theorem ofNames_append {a b : List String} {u : CapabilitySet} :
    ofNames (a ++ b) = .ok u ↔
      ∃ s t, ofNames a = .ok s ∧ ofNames b = .ok t ∧ u = s ∪ t := by
  simp only [ofNames_eq_ok_iff, List.filterMap_append, ofList_append, List.forall_mem_append]
  constructor
  · rintro ⟨⟨left, right⟩, rfl⟩
    exact ⟨_, _, ⟨left, rfl⟩, ⟨right, rfl⟩, rfl⟩
  · rintro ⟨_, _, ⟨left, rfl⟩, ⟨right, rfl⟩, rfl⟩
    exact ⟨⟨left, right⟩, rfl⟩

theorem ofNames_congr {a b : List String} (same : ∀ n, n ∈ a ↔ n ∈ b) {s : CapabilitySet} :
    ofNames a = .ok s ↔ ofNames b = .ok s := by
  simp only [ofNames_eq_ok_iff_members, same]

/-- The names of a set are read back as the set without its unknown bits. -/
theorem ofNames_names (m : CapabilitySet) : ofNames m.names = .ok (m ∩ known) := by
  have listed : ∀ n, n ∈ m.names ↔ ∃ d ∈ m, d.name = n := by simp [names]
  rw [ofNames_eq_ok_iff_members]
  refine ⟨?_, ?_, (onlyKnown_ofList _).subset (inter_subset_right m known)⟩
  · intro n member
    obtain ⟨d, -, rfl⟩ := (listed n).mp member
    exact ⟨d, Capability.spelledBy_name.mpr rfl⟩
  · intro c
    rw [mem_inter, and_iff_left (mem_known c)]
    constructor
    · exact fun member => ⟨c.name, (listed _).mpr ⟨c, member, rfl⟩, Capability.spelledBy_name.mpr rfl⟩
    · rintro ⟨n, member, spelled⟩
      obtain ⟨d, present, rfl⟩ := (listed n).mp member
      rw [Capability.spelledBy_name.mp spelled]
      exact present

theorem toList_ascending (m : CapabilitySet) : m.toList.Pairwise fun c d => c.bit < d.bit := by
  have ascending : Capability.all.Pairwise fun c d => c.bit < d.bit := by decide
  exact ascending.filter _

/-- A list is refused exactly where a name spells nothing, by the first such name, and comes
otherwise to what its names spell and no other bit. So lists joined come to the union, lists of the
same names, in another order or repeated, to the same set, and the names of a set, which are those
of its capabilities in bit order, to what is known of it. -/
theorem ofNames_reads_sets :
    (∀ names, (∃ e, ofNames names = .error e) ↔
      ∃ n ∈ names, ∀ c : Capability, ¬ c.SpelledBy n) ∧
    (∀ names e, ofNames names = .error e ↔
      ∃ before n after, names = before ++ n :: after ∧
        (∀ m ∈ before, ∃ c : Capability, c.SpelledBy m) ∧
        (∀ c : Capability, ¬ c.SpelledBy n) ∧ e = .unknownCapability n) ∧
    (∀ names s, ofNames names = .ok s ↔
      (∀ n ∈ names, ∃ c : Capability, c.SpelledBy n) ∧
        (∀ c : Capability, c ∈ s ↔ ∃ n ∈ names, c.SpelledBy n) ∧
        ∀ i, s.testBit i = true → ∃ c : Capability, c.bit = i) ∧
    (∀ a b u, ofNames (a ++ b) = .ok u ↔
      ∃ s t, ofNames a = .ok s ∧ ofNames b = .ok t ∧ u = s ∪ t) ∧
    (∀ a b, (∀ n, n ∈ a ↔ n ∈ b) → ∀ s, ofNames a = .ok s ↔ ofNames b = .ok s) ∧
    ∀ m : CapabilitySet, ofNames m.names = .ok (m ∩ known) ∧
      ∃ cs : List Capability, m.names = cs.map Capability.name ∧
        cs.Pairwise (fun c d => c.bit < d.bit) ∧ ∀ c, c ∈ cs ↔ m.testBit c.bit = true := by
  refine ⟨fun names => exists_ofNames_error_iff, fun names e => ofNames_eq_error_iff,
    fun names s => ofNames_eq_ok_iff_members, fun a b u => ofNames_append,
    fun a b same s => ofNames_congr same, fun m => ⟨ofNames_names m, ?_⟩⟩
  exact ⟨m.toList, rfl, toList_ascending m, fun c => mem_toList.trans mem_iff⟩

end CapabilitySet
end SimdDispatch
