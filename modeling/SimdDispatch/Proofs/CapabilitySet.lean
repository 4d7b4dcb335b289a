import SimdDispatch.Error

/-!
Sets of capabilities through their bits. Every operation on the word is an operation on each bit
of it, so inclusion and membership follow the laws of sets, bits of no known capability included.
-/
namespace SimdDispatch
namespace CapabilitySet

def testBit (s : CapabilitySet) (i : Nat) : Bool := s.bits.toNat.testBit i

theorem testBit_ext {a b : CapabilitySet} (same : ∀ i, a.testBit i = b.testBit i) : a = b := by
  obtain ⟨x⟩ := a
  obtain ⟨y⟩ := b
  exact congrArg CapabilitySet.mk (UInt32.toNat_inj.mp (Nat.eq_of_testBit_eq same))

@[simp] theorem testBit_empty (i : Nat) : (∅ : CapabilitySet).testBit i = false :=
  Nat.zero_testBit i

@[simp] theorem testBit_union (a b : CapabilitySet) (i : Nat) :
    (a ∪ b).testBit i = (a.testBit i || b.testBit i) := by
  show (a.bits ||| b.bits).toNat.testBit i = _
  rw [UInt32.toNat_or, Nat.testBit_or]
  rfl

@[simp] theorem testBit_inter (a b : CapabilitySet) (i : Nat) :
    (a ∩ b).testBit i = (a.testBit i && b.testBit i) := by
  show (a.bits &&& b.bits).toNat.testBit i = _
  rw [UInt32.toNat_and, Nat.testBit_and]
  rfl

theorem lt_of_testBit {s : CapabilitySet} {i : Nat} (set : s.testBit i = true) : i < 32 := by
  by_cases bound : i < 32
  · exact bound
  · have small : s.bits.toNat < 2 ^ i :=
      Nat.lt_of_lt_of_le s.bits.toNat_lt (Nat.pow_le_pow_right (by decide) (by omega))
    simp [testBit, Nat.testBit_lt_two_pow small] at set

@[simp] theorem testBit_sdiff (a b : CapabilitySet) (i : Nat) :
    (a \ b).testBit i = (a.testBit i && !b.testBit i) := by
  have word : (a \ b).testBit i = (a.testBit i && (decide (i < 32) && !b.testBit i)) := by
    show (a.bits.toBitVec &&& ~~~b.bits.toBitVec).getLsbD i = _
    rw [BitVec.getLsbD_and, BitVec.getLsbD_not]
    rfl
  rw [word]
  cases set : a.testBit i with
  | false => rfl
  | true => simp [lt_of_testBit set]

theorem testBit_only (c : Capability) (i : Nat) : (only c).testBit i = decide (c.bit = i) := by
  have word : (only c).bits.toNat = 2 ^ c.bit := by cases c <;> rfl
  simp only [testBit, word, Nat.testBit_two_pow]

theorem subset_iff {a b : CapabilitySet} :
    a ⊆ b ↔ ∀ i, a.testBit i = true → b.testBit i = true := by
  have meet : a ⊆ b ↔ b ∩ a = a := by
    constructor
    · exact fun word => congrArg CapabilitySet.mk word
    · exact fun same => congrArg CapabilitySet.bits same
  rw [meet]
  constructor
  · intro same i set
    rw [← same, testBit_inter, Bool.and_eq_true] at set
    exact set.1
  · intro inside
    apply testBit_ext
    intro i
    rw [testBit_inter]
    cases set : a.testBit i with
    | false => rw [Bool.and_false]
    | true => rw [inside i set, Bool.and_self]

theorem mem_iff {c : Capability} {s : CapabilitySet} : c ∈ s ↔ s.testBit c.bit = true := by
  show only c ⊆ s ↔ _
  rw [subset_iff]
  simp only [testBit_only, decide_eq_true_eq, forall_eq']

@[simp] theorem mem_union {c : Capability} {a b : CapabilitySet} : c ∈ a ∪ b ↔ c ∈ a ∨ c ∈ b := by
  simp [mem_iff]

@[simp] theorem mem_inter {c : Capability} {a b : CapabilitySet} : c ∈ a ∩ b ↔ c ∈ a ∧ c ∈ b := by
  simp [mem_iff]

@[simp] theorem mem_sdiff {c : Capability} {a b : CapabilitySet} : c ∈ a \ b ↔ c ∈ a ∧ c ∉ b := by
  simp [mem_iff]

@[simp] theorem not_mem_empty (c : Capability) : c ∉ (∅ : CapabilitySet) := by simp [mem_iff]

theorem bit_injective {c d : Capability} (same : c.bit = d.bit) : c = d := by
  revert same
  cases c <;> cases d <;> decide

@[simp] theorem mem_only {c d : Capability} : c ∈ only d ↔ c = d := by
  rw [mem_iff, testBit_only, decide_eq_true_eq]
  exact ⟨fun same => (bit_injective same).symm, fun same => same ▸ rfl⟩

theorem subset_refl (a : CapabilitySet) : a ⊆ a := subset_iff.mpr fun _ set => set

theorem subset_trans {a b c : CapabilitySet} (first : a ⊆ b) (second : b ⊆ c) : a ⊆ c :=
  subset_iff.mpr fun i set => subset_iff.mp second i (subset_iff.mp first i set)

theorem subset_antisymm {a b : CapabilitySet} (left : a ⊆ b) (right : b ⊆ a) : a = b :=
  testBit_ext fun i => Bool.eq_iff_iff.mpr ⟨subset_iff.mp left i, subset_iff.mp right i⟩

theorem mem_of_subset {c : Capability} {a b : CapabilitySet} (inside : a ⊆ b) (member : c ∈ a) :
    c ∈ b := mem_iff.mpr (subset_iff.mp inside _ (mem_iff.mp member))

theorem inter_subset_right (a b : CapabilitySet) : a ∩ b ⊆ b :=
  subset_iff.mpr fun i set => by rw [testBit_inter, Bool.and_eq_true] at set; exact set.2

theorem subset_inter_iff {a b c : CapabilitySet} : a ⊆ b ∩ c ↔ a ⊆ b ∧ a ⊆ c := by
  simp only [subset_iff, testBit_inter, Bool.and_eq_true]
  exact ⟨fun both => ⟨fun i set => (both i set).1, fun i set => (both i set).2⟩,
    fun each i set => ⟨each.1 i set, each.2 i set⟩⟩

theorem sdiff_subset (a b : CapabilitySet) : a \ b ⊆ a :=
  subset_iff.mpr fun i set => by rw [testBit_sdiff, Bool.and_eq_true] at set; exact set.1

theorem union_subset {a b c : CapabilitySet} (left : a ⊆ c) (right : b ⊆ c) : a ∪ b ⊆ c := by
  refine subset_iff.mpr fun i set => ?_
  rw [testBit_union, Bool.or_eq_true] at set
  rcases set with set | set
  · exact subset_iff.mp left i set
  · exact subset_iff.mp right i set

theorem empty_subset (a : CapabilitySet) : ∅ ⊆ a :=
  subset_iff.mpr fun i set => by rw [testBit_empty] at set; cases set

theorem union_mono_left {a b : CapabilitySet} (inside : a ⊆ b) (c : CapabilitySet) :
    a ∪ c ⊆ b ∪ c := by
  refine subset_iff.mpr fun i set => ?_
  rw [testBit_union, Bool.or_eq_true] at set ⊢
  exact set.imp_left (subset_iff.mp inside i)

theorem sdiff_mono {a b c d : CapabilitySet} (inside : a ⊆ b) (fewer : d ⊆ c) : a \ c ⊆ b \ d := by
  refine subset_iff.mpr fun i set => ?_
  rw [testBit_sdiff, Bool.and_eq_true, Bool.not_eq_true'] at set ⊢
  refine ⟨subset_iff.mp inside i set.1, ?_⟩
  cases gone : d.testBit i with
  | false => rfl
  | true => rw [subset_iff.mp fewer i gone] at set; cases set.2

theorem only_subset {c : Capability} {s : CapabilitySet} (member : c ∈ s) : only c ⊆ s := member

@[simp] theorem inter_empty (a : CapabilitySet) : a ∩ ∅ = ∅ := by
  apply testBit_ext
  intro i
  simp

@[simp] theorem inter_self (a : CapabilitySet) : a ∩ a = a := by
  apply testBit_ext
  intro i
  simp

@[simp] theorem sdiff_empty (a : CapabilitySet) : a \ ∅ = a := by
  apply testBit_ext
  intro i
  simp

@[simp] theorem sdiff_sdiff_self (a b : CapabilitySet) : (a \ b) \ b = a \ b := by
  apply testBit_ext
  intro i
  cases set : b.testBit i <;> simp [set]

theorem union_eq_left {a b : CapabilitySet} (inside : b ⊆ a) : a ∪ b = a := by
  apply testBit_ext
  intro i
  have present := subset_iff.mp inside i
  cases set : b.testBit i with
  | false => simp [set]
  | true => simp [set, present set]

theorem subset_iff_sdiff_eq_empty {a b : CapabilitySet} : a ⊆ b ↔ a \ b = ∅ := by
  rw [subset_iff]
  constructor
  · intro inside
    apply testBit_ext
    intro i
    cases set : a.testBit i with
    | false => simp [set]
    | true => simp [set, inside i set]
  · intro nothing i set
    have clear : (a \ b).testBit i = false := by rw [nothing, testBit_empty]
    simpa [set] using clear

/-- What a set lacks of others can only be told by the bits that it has. -/
theorem sdiff_eq_of_inter_eq {s scope a b : CapabilitySet} (inside : s ⊆ scope)
    (agree : a ∩ scope = b ∩ scope) : s \ a = s \ b := by
  apply testBit_ext
  intro i
  have same : (a ∩ scope).testBit i = (b ∩ scope).testBit i := by rw [agree]
  cases set : s.testBit i with
  | false => simp [set]
  | true =>
    have within := subset_iff.mp inside i set
    have alike : a.testBit i = b.testBit i := by simpa [within] using same
    simp [set, alike]

theorem isEmpty_iff {s : CapabilitySet} : s.isEmpty = true ↔ ∀ i, s.testBit i = false := by
  rw [isEmpty, beq_iff_eq]
  constructor
  · intro empty i
    rw [empty, testBit_empty]
  · intro unset
    exact testBit_ext fun i => (unset i).trans (testBit_empty i).symm

@[simp] theorem mem_toList {c : Capability} {s : CapabilitySet} : c ∈ s.toList ↔ c ∈ s := by
  have listed : c ∈ Capability.all := by cases c <;> decide
  simp [toList, listed]

theorem testBit_ofList {cs : List Capability} {i : Nat} :
    (ofList cs).testBit i = true ↔ ∃ c ∈ cs, c.bit = i := by
  have collected : ∀ s : CapabilitySet, (cs.foldl (fun s d => s ∪ only d) s).testBit i = true ↔
      s.testBit i = true ∨ ∃ c ∈ cs, c.bit = i := by
    induction cs with
    | nil => simp
    | cons d rest ih => simp [ih, testBit_only, or_assoc]
  simpa [ofList] using collected ∅

@[simp] theorem mem_ofList {c : Capability} {cs : List Capability} : c ∈ ofList cs ↔ c ∈ cs := by
  rw [mem_iff, testBit_ofList]
  constructor
  · rintro ⟨d, member, same⟩
    exact bit_injective same ▸ member
  · exact fun member => ⟨c, member, rfl⟩

theorem exists_mem_of_testBit {s : CapabilitySet} {i : Nat} (knownBits : s.unknown.isEmpty = true)
    (set : s.testBit i = true) : ∃ c ∈ s, c.bit = i := by
  have clear := isEmpty_iff.mp knownBits i
  rw [unknown, testBit_sdiff, set, Bool.true_and, Bool.not_eq_false'] at clear
  obtain ⟨c, -, rfl⟩ := testBit_ofList.mp clear
  exact ⟨c, mem_iff.mpr set, rfl⟩

/-- Between sets, of which the first has no unknown bits, inclusion is inclusion of members. -/
theorem subset_iff_mem {a b : CapabilitySet} (knownBits : a.unknown.isEmpty = true) :
    a ⊆ b ↔ ∀ c ∈ a, c ∈ b := by
  constructor
  · exact fun inside c member => mem_of_subset inside member
  · intro inside
    refine subset_iff.mpr fun i set => ?_
    obtain ⟨c, member, rfl⟩ := exists_mem_of_testBit knownBits set
    exact mem_iff.mp (inside c member)

/-- Every bit stands for a capability. -/
def OnlyKnown (s : CapabilitySet) : Prop := ∀ i, s.testBit i = true → ∃ c : Capability, c.bit = i

theorem mem_known (c : Capability) : c ∈ known := by
  rw [known, mem_ofList]
  cases c <;> decide

theorem unknown_isEmpty_iff {s : CapabilitySet} : s.unknown.isEmpty = true ↔ s.OnlyKnown := by
  constructor
  · intro nothing i set
    obtain ⟨c, -, place⟩ := exists_mem_of_testBit nothing set
    exact ⟨c, place⟩
  · intro every
    rw [isEmpty_iff]
    intro i
    rw [unknown, testBit_sdiff]
    cases set : s.testBit i with
    | false => rfl
    | true =>
      obtain ⟨c, rfl⟩ := every i set
      rw [mem_iff.mp (mem_known c)]
      rfl

theorem onlyKnown_ofList (cs : List Capability) : (ofList cs).OnlyKnown := by
  intro i set
  obtain ⟨c, -, place⟩ := testBit_ofList.mp set
  exact ⟨c, place⟩

theorem OnlyKnown.subset {a b : CapabilitySet} (known : b.OnlyKnown) (inside : a ⊆ b) :
    a.OnlyKnown := fun i set => known i (subset_iff.mp inside i set)

/-- Sets without unknown bits are told apart by their members. -/
theorem OnlyKnown.ext {a b : CapabilitySet} (left : a.OnlyKnown) (right : b.OnlyKnown)
    (same : ∀ c, c ∈ a ↔ c ∈ b) : a = b := by
  apply subset_antisymm
  · exact (subset_iff_mem (unknown_isEmpty_iff.mpr left)).mpr fun c => (same c).mp
  · exact (subset_iff_mem (unknown_isEmpty_iff.mpr right)).mpr fun c => (same c).mpr

end CapabilitySet
end SimdDispatch
