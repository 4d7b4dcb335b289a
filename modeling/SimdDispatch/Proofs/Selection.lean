import SimdDispatch.Proofs.Machines

/-!
The selection of a table as a search. The running best of the fold is the first table of the list
that runs and that no other one that runs exceeds, so a tie is settled by the order of the list.
-/
namespace SimdDispatch.Machines

/-- Runs, and no table of the list that runs has more capabilities. -/
def Leading (tables : List Table) (detected : CapabilitySet) (t : Table) : Prop :=
  t.mask ⊆ detected ∧ ∀ u ∈ tables, u.mask ⊆ detected → u.mask.card ≤ t.mask.card

instance (tables : List Table) (detected : CapabilitySet) (t : Table) :
    Decidable (Leading tables detected t) := inferInstanceAs (Decidable (_ ∧ _))

variable {tables : List Table} {detected : CapabilitySet} {t : Table}

theorem Best.leading (best : Best tables detected t) : Leading tables detected t :=
  ⟨best.runs, fun _ member runs => best.card_le member runs⟩

theorem best_iff_find? :
    Best tables detected t ↔ tables.find? (Leading tables detected ·) = some t := by
  rw [List.find?_eq_some_iff_append, decide_eq_true_eq]
  constructor
  · intro best
    have member := best.mem
    have leading := best.leading
    obtain ⟨before, after, split, runs, fewer, -⟩ := best
    refine ⟨leading, before, after, split, fun u early => ?_⟩
    have trails : ¬ Leading tables detected u := fun leads =>
      absurd (fewer u early leads.1) (Nat.not_lt.mpr (leads.2 t member runs))
    simpa using trails
  · rintro ⟨leading, before, after, split, earlier⟩
    refine ⟨before, after, split, leading.1, ?_, ?_⟩
    · intro u early runs
      have trails : ¬ Leading tables detected u := by simpa using earlier u early
      -- With as many capabilities as `t` the earlier table would lead as well.
      refine Nat.lt_of_not_le fun many => trails ⟨runs, fun v member vruns => ?_⟩
      exact Nat.le_trans (leading.2 v member vruns) many
    · exact fun u late runs => leading.2 u (by rw [split]; simp [late]) runs

theorem select_eq_find? (tables : List Table) (detected : CapabilitySet) :
    select tables detected = tables.find? (Leading tables detected ·) := by
  apply Option.ext
  intro t
  rw [select_eq_some_iff, best_iff_find?]

theorem select_eq_none_iff :
    select tables detected = none ↔ ∀ t ∈ tables, ¬ t.mask ⊆ detected := by
  constructor
  · intro nothing
    have spec := select_spec tables detected
    rw [nothing] at spec
    exact spec
  · intro idle
    rw [select_eq_find?, List.find?_eq_none]
    intro t member
    have trails : ¬ Leading tables detected t := fun leads => idle t member leads.1
    simpa using trails

/-- Nothing is selected exactly where no table runs. Otherwise it is the table at the least place of
those that run and that none of the others that run exceeds; a list that was accepted always has
one. -/
theorem select_takes_first_leading (tables : List Table) (detected : CapabilitySet) :
    (select tables detected = none ↔ ∀ t ∈ tables, ¬ t.mask ⊆ detected) ∧
      (∀ t, select tables detected = some t ↔
        ∃ (i : Nat) (inside : i < tables.length), tables[i] = t ∧
          Leading tables detected tables[i] ∧
          ∀ (j : Nat) (before : j < i), ¬ Leading tables detected tables[j]) ∧
      (validate tables = .ok () → .generic ∈ detected → ∃ t, select tables detected = some t) := by
  refine ⟨select_eq_none_iff, fun t => ?_, exists_select⟩
  rw [select_eq_find?, List.find?_eq_some_iff_getElem, decide_eq_true_eq]
  constructor
  · rintro ⟨leading, i, inside, rfl, earlier⟩
    exact ⟨i, inside, rfl, leading, fun j before => by simpa using earlier j before⟩
  · rintro ⟨i, inside, rfl, leading, earlier⟩
    exact ⟨leading, i, inside, rfl, fun j before => by simpa using earlier j before⟩

/-- Two tables that run with as many capabilities each: the earlier one is selected in either order,
and a table of fewer capabilities before them is passed over. -/
theorem select_takes_first_of_tied :
    let sse : Table := ⟨"sse", .ofList [.generic, .sse], 16, [], by decide⟩
    let neon : Table := ⟨"neon", .ofList [.generic, .neon], 16, [], by decide⟩
    let plain : Table := ⟨"plain", .generic, 1, [], by decide⟩
    let detected : CapabilitySet := .ofList [.generic, .sse, .neon]
    validate [plain, sse, neon] = .ok () ∧ .generic ∈ detected ∧
      (∃ t, select [plain, sse, neon] detected = some t) ∧
      select [plain, sse, neon] detected = some sse ∧
      select [neon, sse, plain] detected = some neon ∧
      select [sse, neon] .generic = none := by
  intro sse neon plain detected
  have accepted : validate [plain, sse, neon] = .ok () := by decide
  have portable : .generic ∈ detected := by decide
  obtain ⟨-, first, selects⟩ := select_takes_first_leading [plain, sse, neon] detected
  obtain ⟨-, first', -⟩ := select_takes_first_leading [neon, sse, plain] detected
  obtain ⟨nothing, -, -⟩ := select_takes_first_leading [sse, neon] .generic
  refine ⟨accepted, portable, selects accepted portable, ?_, ?_, nothing.mpr (by decide)⟩
  · exact (first sse).mpr ⟨1, by decide, rfl, by decide, by decide⟩
  · exact (first' neon).mpr ⟨0, by decide, rfl, by decide, by decide⟩

end SimdDispatch.Machines
