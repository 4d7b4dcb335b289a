import SimdDispatch.Config
import SimdDispatch.Proofs.CapabilitySet
import SimdDispatch.Proofs.Event

/-!
What a configuration leaves of the capabilities of a processor. An accepted configuration takes
away exactly the capabilities that its spellings stand for, and never the portable one.
-/
namespace SimdDispatch

def unreadable? (name : String) : Option Error :=
  match Capability.ofName? name with
  | some _ => none
  | none => some (.unknownCapability name)

/-- Reading a list of names fails at the first that cannot be read, and otherwise gives what they
stand for. -/
theorem CapabilitySet.ofNames_eq_settle (names : List String) :
    ofNames names =
      settle (names.findSome? unreadable?) (ofList (names.filterMap Capability.ofName?)) := by
  unfold ofNames ofList
  generalize (∅ : CapabilitySet) = initial
  induction names generalizing initial with
  | nil => rfl
  | cons n rest ih =>
    rw [List.foldlM_cons]
    cases read : Capability.ofName? n with
    | none => simp [Capability.ofName, unreadable?, read, bind, Except.bind]
    | some c =>
      simpa [Capability.ofName, unreadable?, read, bind, Except.bind, pure, Except.pure]
        using ih (initial ∪ only c)

theorem CapabilitySet.ofNames_eq_ok {names : List String} {s : CapabilitySet}
    (ok : ofNames names = .ok s) : s = ofList (names.filterMap Capability.ofName?) := by
  rw [ofNames_eq_settle, settle_eq_ok_iff] at ok
  exact ok.2.symm

theorem CapabilitySet.ofNames_eq_error {names : List String} {e : Error}
    (failed : ofNames names = .error e) : ∃ n ∈ names, e = .unknownCapability n := by
  rw [ofNames_eq_settle, settle_eq_error_iff] at failed
  obtain ⟨n, member, unread⟩ := List.exists_of_findSome?_eq_some failed
  unfold unreadable? at unread
  split at unread
  · cases unread
  · cases unread
    exact ⟨n, member, rfl⟩

namespace Config

def taken (c : Config) : CapabilitySet := .ofList (c.disabled.filterMap Capability.ofName?)

/-- What a configuration leaves of the capabilities given. -/
def remaining (c : Config) (given : CapabilitySet) : CapabilitySet :=
  if c.forceGeneric then .generic else (given ∪ .generic) \ c.taken

theorem mem_taken {config : Config} {c : Capability} :
    c ∈ config.taken ↔ ∃ spelling ∈ config.disabled, Capability.ofName? spelling = some c := by
  simp [taken]

theorem validate_eq_ok_iff {c : Config} :
    c.validate = .ok () ↔
      c.disabledSet = .ok c.taken ∧ .generic ∉ c.taken ∧
        ∀ name, c.machine = some name → Text.trim name ≠ "" := by
  unfold validate
  cases read : c.disabledSet with
  | error e => simp [bind, Except.bind]
  | ok disabled =>
    have same : disabled = c.taken := CapabilitySet.ofNames_eq_ok read
    subst same
    by_cases portable : Capability.generic ∈ c.taken
    · simp [bind, Except.bind, portable, throw, throwThe, MonadExceptOf.throw]
    · cases pin : c.machine with
      | none => simp [bind, Except.bind, portable, pure, Except.pure]
      | some name =>
        by_cases blank : Text.trim name = "" <;>
          simp [bind, Except.bind, portable, pure, Except.pure, blank, throw, throwThe,
            MonadExceptOf.throw]

theorem validate_eq_error {c : Config} {e : Error} (invalid : c.validate = .error e) :
    (∃ spelling ∈ c.disabled, e = .unknownCapability spelling) ∨ e = .genericDisabled ∨
      e = .emptyMachineName := by
  unfold validate at invalid
  cases read : c.disabledSet with
  | error f =>
    rw [read] at invalid
    cases invalid
    exact .inl (CapabilitySet.ofNames_eq_error read)
  | ok disabled =>
    rw [read] at invalid
    by_cases portable : Capability.generic ∈ disabled
    · simp only [bind, Except.bind, portable, if_true] at invalid
      cases invalid
      exact .inr (.inl rfl)
    · simp only [bind, Except.bind, portable, if_false] at invalid
      split at invalid
      · split at invalid
        · cases invalid
          exact .inr (.inr rfl)
        · cases invalid
      · cases invalid

theorem disabledSet_of_validate {c : Config} (valid : c.validate = .ok ()) :
    c.disabledSet = .ok c.taken := (validate_eq_ok_iff.mp valid).1

theorem generic_mem_remaining {c : Config} (valid : c.validate = .ok ()) (given : CapabilitySet) :
    .generic ∈ c.remaining given := by
  unfold remaining
  split
  · exact CapabilitySet.mem_only.mpr rfl
  · exact CapabilitySet.mem_sdiff.mpr
      ⟨CapabilitySet.mem_union.mpr (.inr (CapabilitySet.mem_only.mpr rfl)),
        (validate_eq_ok_iff.mp valid).2.1⟩

theorem remaining_subset {c : Config} {given cpu : CapabilitySet} (inside : given ⊆ cpu)
    (portable : .generic ∈ cpu) : c.remaining given ⊆ cpu := by
  have generic : CapabilitySet.generic ⊆ cpu := CapabilitySet.only_subset portable
  unfold remaining
  split
  · exact generic
  · exact CapabilitySet.subset_trans (CapabilitySet.sdiff_subset _ _)
      (CapabilitySet.union_subset inside generic)

/-- What a configuration leaves it leaves again. -/
theorem remaining_remaining {c : Config} (valid : c.validate = .ok ()) (given : CapabilitySet) :
    c.remaining (c.remaining given) = c.remaining given := by
  have generic : CapabilitySet.generic ⊆ c.remaining given :=
    CapabilitySet.only_subset (generic_mem_remaining valid given)
  have kept : c.remaining given ∪ .generic = c.remaining given := CapabilitySet.union_eq_left generic
  cases forced : c.forceGeneric with
  | true => simp [remaining, forced]
  | false =>
    have left : c.remaining given = (given ∪ .generic) \ c.taken := by simp [remaining, forced]
    calc c.remaining (c.remaining given)
        = (c.remaining given ∪ .generic) \ c.taken := by simp [remaining, forced]
      _ = ((given ∪ .generic) \ c.taken) \ c.taken := by rw [kept, left]
      _ = c.remaining given := by rw [CapabilitySet.sdiff_sdiff_self, left]

/-- What two processors are left with agrees wherever the processors do. -/
theorem remaining_inter_eq (c : Config) {scope first second : CapabilitySet}
    (agree : first ∩ scope = second ∩ scope) :
    c.remaining first ∩ scope = c.remaining second ∩ scope := by
  cases forced : c.forceGeneric with
  | true => simp [remaining, forced]
  | false =>
    apply CapabilitySet.testBit_ext
    intro i
    have same : (first ∩ scope).testBit i = (second ∩ scope).testBit i := by rw [agree]
    cases within : scope.testBit i with
    | false => simp [within]
    | true =>
      have alike : first.testBit i = second.testBit i := by simpa [within] using same
      simp [remaining, forced, alike]

theorem not_mem_remaining {config : Config} (valid : config.validate = .ok ()) {c : Capability}
    (disabled : c ∈ config.taken) (given : CapabilitySet) : c ∉ config.remaining given := by
  unfold remaining
  split
  · intro member
    rw [CapabilitySet.mem_only.mp member] at disabled
    exact (validate_eq_ok_iff.mp valid).2.1 disabled
  · intro member
    exact (CapabilitySet.mem_sdiff.mp member).2 disabled

end Config
end SimdDispatch
