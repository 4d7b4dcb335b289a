import Mathlib.Data.List.DropRight
import Mathlib.Data.Set.Subsingleton
import SimdDispatch.Proofs.Config

/-!
The texts that a capability is written by. Reading a name accepts exactly the spellings of the
eleven names between blanks, no text spells two of them, and all else is refused as it stands.
-/
namespace SimdDispatch

namespace Text

/-- What is left of a text without the blanks at its ends. -/
structure Trimmed (s t : List Char) : Prop where
  around : ∃ before after, s = before ++ t ++ after ∧
    (∀ c ∈ before, isBlank c = true) ∧ ∀ c ∈ after, isBlank c = true
  first : ∀ c ∈ t.head?, isBlank c = false
  last : ∀ c ∈ t.getLast?, isBlank c = false

theorem trimWhile_eq_rdropWhile (p : Char → Bool) (s : List Char) :
    trimWhile p s = (s.dropWhile p).rdropWhile p := rfl

theorem trimmed_trimWhile (s : List Char) : Trimmed s (trimWhile isBlank s) := by
  rw [trimWhile_eq_rdropWhile]
  refine ⟨⟨s.takeWhile isBlank, (s.dropWhile isBlank).rtakeWhile isBlank, ?_, ?_, ?_⟩, ?_, ?_⟩
  · rw [List.append_assoc, List.rdropWhile_append_rtakeWhile, List.takeWhile_append_dropWhile]
  · exact fun c member => List.mem_takeWhile_imp member
  · exact fun c member => List.mem_rtakeWhile_imp member
  · intro c first
    obtain ⟨rest, whole⟩ := List.rdropWhile_prefix isBlank (s.dropWhile isBlank)
    have stopped := List.head?_dropWhile_not isBlank s
    rw [← whole, List.head?_append, Option.mem_def.mp first] at stopped
    exact stopped
  · intro c last
    obtain ⟨nonempty, rfl⟩ := List.mem_getLast?_eq_getLast last
    simpa using List.rdropWhile_last_not isBlank (s.dropWhile isBlank) nonempty

theorem Trimmed.eq {s t : List Char} (trimmed : Trimmed s t) : trimWhile isBlank s = t := by
  obtain ⟨⟨before, after, rfl, early, late⟩, first, last⟩ := trimmed
  have ended : (t ++ after).rdropWhile isBlank = t := by
    rw [List.rdropWhile, List.reverse_append,
      List.dropWhile_append_of_pos fun c member => late c (List.mem_reverse.mp member)]
    apply List.rdropWhile_eq_self_iff.mpr
    intro nonempty
    simp [last _ (List.getLast?_eq_some_getLast nonempty)]
  rw [trimWhile_eq_rdropWhile, List.append_assoc, List.dropWhile_append_of_pos early]
  cases t with
  | nil => rw [List.nil_append, List.dropWhile_eq_nil_iff.mpr late, List.rdropWhile_nil]
  | cons c rest =>
    rw [List.cons_append, List.dropWhile_cons_of_neg (by simp [first c rfl])]
    exact ended

theorem between_iff (low high c : Char) :
    low.val ≤ c.val ∧ c.val ≤ high.val ↔ low.toNat ≤ c.toNat ∧ c.toNat ≤ high.toNat := by
  rw [UInt32.le_iff_toNat_le, UInt32.le_iff_toNat_le]
  rfl

theorem toNat_toLower (c : Char) :
    c.toLower.toNat = if 65 ≤ c.toNat ∧ c.toNat ≤ 90 then c.toNat + 32 else c.toNat := by
  have capital : 'A'.val ≤ c.val ∧ c.val ≤ 'Z'.val ↔ 65 ≤ c.toNat ∧ c.toNat ≤ 90 :=
    between_iff 'A' 'Z' c
  have distance : ('a'.val - 'A'.val).toNat = 32 := rfl
  unfold Char.toLower
  split
  · rename_i within
    obtain ⟨least, most⟩ := capital.mp within
    rw [if_pos ⟨least, most⟩]
    unfold Char.toNat at *
    rw [UInt32.toNat_add, distance]
    omega
  · rename_i outside
    rw [if_neg (mt capital.mpr outside)]

theorem toNat_toUpper (c : Char) :
    c.toUpper.toNat = if 97 ≤ c.toNat ∧ c.toNat ≤ 122 then c.toNat - 32 else c.toNat := by
  have small : 'a'.val ≤ c.val ∧ c.val ≤ 'z'.val ↔ 97 ≤ c.toNat ∧ c.toNat ≤ 122 :=
    between_iff 'a' 'z' c
  -- The distance is negative and wraps around, as the sum does.
  have distance : ('A'.val - 'a'.val).toNat = 2 ^ 32 - 32 := rfl
  unfold Char.toUpper
  split
  · rename_i within
    obtain ⟨least, most⟩ := small.mp within
    rw [if_pos ⟨least, most⟩]
    unfold Char.toNat at *
    rw [UInt32.toNat_add, distance]
    omega
  · rename_i outside
    rw [if_neg (mt small.mpr outside)]

/-- What becomes a small character is this one or its capital. -/
theorem toLower_eq_iff {c d : Char} (small : d.toLower = d) :
    c.toLower = d ↔ c = d.toLower ∨ c = d.toUpper := by
  have uncapital : ¬ (65 ≤ d.toNat ∧ d.toNat ≤ 90) := by
    intro capital
    have same := toNat_toLower d
    rw [small, if_pos capital] at same
    omega
  rw [small, ← Char.toNat_inj, ← Char.toNat_inj, ← Char.toNat_inj, toNat_toLower, toNat_toUpper]
  split <;> split <;> omega

end Text

namespace Capability

/-- The spellings of a word: its characters in order, each in either ASCII case, and separators
anywhere between, before and behind them. -/
inductive Spells : List Char → List Char → Prop where
  | nil : Spells [] []
  | separator {c : Char} {cs word : List Char} (between : c = '.' ∨ c = '_')
      (rest : Spells cs word) : Spells (c :: cs) word
  | letter {c d : Char} {cs word : List Char} (cased : c = d.toLower ∨ c = d.toUpper)
      (rest : Spells cs word) : Spells (c :: cs) (d :: word)

/-- A text that is, without the blanks at its ends, a spelling of a capability's name. -/
def SpelledBy (c : Capability) (s : String) : Prop :=
  ∃ t, Text.Trimmed s.toList t ∧ Spells t c.name.toList

theorem isSeparator_iff {c : Char} : isSeparator c = true ↔ c = '.' ∨ c = '_' := by
  simp [isSeparator]

theorem isSeparator_toLower (c : Char) : isSeparator c.toLower = isSeparator c := by
  have dot : c.toLower = '.' ↔ c = '.' := (Text.toLower_eq_iff rfl).trans or_self_iff
  have underscore : c.toLower = '_' ↔ c = '_' := (Text.toLower_eq_iff rfl).trans or_self_iff
  rw [Bool.eq_iff_iff, isSeparator_iff, isSeparator_iff, dot, underscore]

/-- Lowercase characters without separators, as in the names of capabilities. -/
def IsPlain (word : List Char) : Prop := ∀ d ∈ word, d.toLower = d ∧ isSeparator d = false

theorem name_isPlain (c : Capability) : IsPlain c.name.toList := by
  cases c <;> simp [IsPlain, name, isSeparator]

/-- Dropping separators from the lowercase text leaves a word exactly of its spellings. -/
theorem filter_eq_iff_spells {cs word : List Char} (plain : IsPlain word) :
    (cs.map Char.toLower).filter (!isSeparator ·) = word ↔ Spells cs word := by
  induction cs generalizing word with
  | nil =>
    constructor
    · rintro rfl
      exact .nil
    · rintro ⟨⟩
      rfl
  | cons c cs ih =>
    rw [List.map_cons, List.filter_cons, isSeparator_toLower]
    by_cases between : isSeparator c = true
    · rw [if_neg (by simp [between]), ih plain]
      constructor
      · exact .separator (isSeparator_iff.mp between)
      · intro spelled
        cases spelled with
        | separator _ rest => exact rest
        | letter cased rest =>
          obtain ⟨small, apart⟩ := plain _ List.mem_cons_self
          rw [← (Text.toLower_eq_iff small).mpr cased, isSeparator_toLower, between] at apart
          cases apart
    · rw [if_pos (by simp [between])]
      constructor
      · rintro rfl
        obtain ⟨small, -⟩ := plain _ List.mem_cons_self
        exact .letter ((Text.toLower_eq_iff small).mp rfl)
          ((ih fun d member => plain d (List.mem_cons_of_mem _ member)).mp rfl)
      · intro spelled
        cases spelled with
        | separator separates _ => exact absurd (isSeparator_iff.mpr separates) between
        | letter cased rest =>
          obtain ⟨small, -⟩ := plain _ List.mem_cons_self
          rw [(Text.toLower_eq_iff small).mpr cased,
            (ih fun d member => plain d (List.mem_cons_of_mem _ member)).mpr rest]

theorem normalize_eq_iff {s : String} {c : Capability} :
    normalize s = c.name.toList ↔ c.SpelledBy s := by
  rw [normalize, filter_eq_iff_spells (name_isPlain c)]
  constructor
  · exact fun spelled => ⟨_, Text.trimmed_trimWhile s.toList, spelled⟩
  · rintro ⟨t, trimmed, spelled⟩
    rw [trimmed.eq]
    exact spelled

theorem ofName?_eq_some_iff {s : String} {c : Capability} :
    ofName? s = some c ↔ c.SpelledBy s := by
  rw [← normalize_eq_iff]
  constructor
  · intro found
    have same := List.find?_some found
    exact (beq_iff_eq.mp same).symm
  · intro same
    rw [ofName?, same]
    cases c <;> rfl

theorem ofName_eq_ok_iff {s : String} {c : Capability} :
    ofName s = .ok c ↔ c.SpelledBy s := by
  rw [← ofName?_eq_some_iff, ofName]
  cases ofName? s <;> simp

theorem ofName_eq_error_iff {s : String} {e : Error} :
    ofName s = .error e ↔ (∀ c : Capability, ¬ c.SpelledBy s) ∧ e = .unknownCapability s := by
  simp only [← ofName?_eq_some_iff, ofName]
  cases ofName? s with
  | none => simp [eq_comm]
  | some c => simp

end Capability

theorem unreadable?_eq_none_iff {s : String} :
    unreadable? s = none ↔ ∃ c : Capability, c.SpelledBy s := by
  simp only [← Capability.ofName?_eq_some_iff, unreadable?]
  cases Capability.ofName? s <;> simp

theorem unreadable?_eq_some_iff {s : String} {e : Error} :
    unreadable? s = some e ↔ (∀ c : Capability, ¬ c.SpelledBy s) ∧ e = .unknownCapability s := by
  simp only [← Capability.ofName?_eq_some_iff, unreadable?]
  cases Capability.ofName? s with
  | none => simp [eq_comm]
  | some c => simp

theorem CapabilitySet.ofNames_eq_ok_iff {names : List String} {s : CapabilitySet} :
    ofNames names = .ok s ↔
      (∀ n ∈ names, ∃ c : Capability, c.SpelledBy n) ∧
        ofList (names.filterMap Capability.ofName?) = s := by
  simp only [ofNames_eq_settle, settle_eq_ok_iff, List.findSome?_eq_none_iff,
    unreadable?_eq_none_iff]

theorem Config.validate_eq_ok_iff_spelled {c : Config} :
    c.validate = .ok () ↔
      (∀ s ∈ c.disabled, ∃ taken : Capability, taken.SpelledBy s) ∧
      (∀ s ∈ c.disabled, ¬ Capability.generic.SpelledBy s) ∧
      ∀ name, c.machine = some name → Text.trim name ≠ "" := by
  have readable : c.disabledSet = .ok c.taken ↔
      ∀ s ∈ c.disabled, ∃ taken : Capability, taken.SpelledBy s := by
    rw [disabledSet, CapabilitySet.ofNames_eq_ok_iff]
    exact and_iff_left rfl
  have portable : Capability.generic ∉ c.taken ↔
      ∀ s ∈ c.disabled, ¬ Capability.generic.SpelledBy s := by
    simp only [mem_taken, Capability.ofName?_eq_some_iff, not_exists, not_and]
  rw [validate_eq_ok_iff, readable, portable]

/-- A name is read exactly where it spells a capability, which is the only one that it spells, and
any other is refused as it stands. So a configuration is accepted, as far as its list of disabled
capabilities goes, exactly if every entry spells one and none of them the portable one. -/
theorem Capability.ofName_accepts_spellings :
    (∀ s c, ofName s = .ok c ↔ c.SpelledBy s) ∧
    (∀ s, {c : Capability | c.SpelledBy s}.Subsingleton) ∧
    (∀ s e, ofName s = .error e ↔
      (∀ c : Capability, ¬ c.SpelledBy s) ∧ e = .unknownCapability s) ∧
    ∀ config : Config, config.validate = .ok () ↔
      (∀ s ∈ config.disabled, ∃ c : Capability, c.SpelledBy s) ∧
      (∀ s ∈ config.disabled, ¬ Capability.generic.SpelledBy s) ∧
      ∀ name, config.machine = some name → Text.trim name ≠ "" := by
  refine ⟨fun s c => ofName_eq_ok_iff, ?_, fun s e => ofName_eq_error_iff,
    fun config => Config.validate_eq_ok_iff_spelled⟩
  intro s c spelled d spelled'
  exact Except.ok.inj ((ofName_eq_ok_iff.mpr spelled).symm.trans (ofName_eq_ok_iff.mpr spelled'))

example : Capability.ofName "\u2003_aVx.512_F\n" = .ok .avx512f := by decide

/-- Blanks inside are not taken away. -/
example : Capability.ofName ". avx" = .error (.unknownCapability ". avx") := by decide

end SimdDispatch
