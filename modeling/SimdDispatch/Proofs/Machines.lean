import Mathlib.Data.List.Induction
import Mathlib.Data.List.Nodup
import SimdDispatch.Proofs.Table

/-!
Lists of machine tables: what their check establishes, and which table the selection settles on.
The selection is characterised without its fold, by a place in the list.
-/
namespace SimdDispatch

theorem find?_name_eq_some_iff {α : Type} (name : α → String) {entries : List α}
    (distinct : (entries.map name).Nodup) {key : String} {x : α} :
    entries.find? (name · == key) = some x ↔ x ∈ entries ∧ name x = key := by
  constructor
  · intro found
    exact ⟨List.mem_of_find?_eq_some found, by simpa using List.find?_some found⟩
  · rintro ⟨member, rfl⟩
    cases found : entries.find? (name · == name x) with
    | none => simpa using List.find?_eq_none.mp found x member
    | some y =>
      have same : name y = name x := by simpa using List.find?_some found
      rw [List.inj_on_of_nodup_map distinct (List.mem_of_find?_eq_some found) member same]

theorem Table.primitive_eq_ok_iff {t : Table} {key : String} {p : Primitive} :
    t.primitive key = .ok p ↔ p ∈ t.primitives ∧ p.name = key := by
  rw [← find?_name_eq_some_iff Primitive.name t.wellFormed.distinct]
  unfold primitive find?
  cases t.primitives.find? (·.name == key) <;> simp

namespace Machines

theorem firstRepeated?_eq_none_iff (names : List String) :
    firstRepeated? [] names = none ↔ names.Nodup := by
  have walked := walk_eq_none_iff id (fun _ => True)
    (fun earlier n => if n ∈ earlier then some n else none) firstRepeated? (fun _ => rfl)
    (fun earlier n rest => by by_cases seen : n ∈ earlier <;> simp [firstRepeated?, seen])
    (fun earlier n => by simp) names []
  simpa using walked

theorem validate_eq_ok_iff {tables : List Table} :
    validate tables = .ok () ↔
      (tables.map (·.name)).Nodup ∧ ∃ t ∈ tables, t.mask = .generic := by
  rw [← firstRepeated?_eq_none_iff]
  unfold validate
  constructor
  · intro passed
    split at passed
    · contradiction
    · rename_i distinct
      split at passed
      · rename_i portable
        exact ⟨distinct, by simpa using portable⟩
      · contradiction
  · rintro ⟨distinct, portable⟩
    have present : tables.any (·.mask == .generic) = true := by simpa using portable
    simp only [distinct, present, if_true]

theorem find_eq_ok_iff {tables : List Table} (distinct : (tables.map (·.name)).Nodup)
    {name : String} {t : Table} : find tables name = .ok t ↔ t ∈ tables ∧ t.name = name := by
  rw [← find?_name_eq_some_iff Table.name distinct]
  unfold find
  cases tables.find? (·.name == name) <;> simp

theorem find_eq_error_iff {tables : List Table} {name : String} {e : Error} :
    find tables name = .error e ↔ (∀ t ∈ tables, t.name ≠ name) ∧ e = .unknownMachine name := by
  unfold find
  cases found : tables.find? (·.name == name) with
  | none =>
    have absent : ∀ t ∈ tables, t.name ≠ name := by simpa using found
    simp only [Except.error.injEq]
    exact ⟨fun same => ⟨absent, same.symm⟩, fun same => same.2.symm⟩
  | some t =>
    have named : t.name = name := by simpa using List.find?_some found
    simp only [reduceCtorEq, false_iff, not_and]
    exact fun absent => absurd named (absent t (List.mem_of_find?_eq_some found))

/-- A table that runs, listed before every other that runs with as many capabilities and after
none that has more. -/
def Best (tables : List Table) (detected : CapabilitySet) (t : Table) : Prop :=
  ∃ before after, tables = before ++ t :: after ∧ t.mask ⊆ detected ∧
    (∀ u ∈ before, u.mask ⊆ detected → u.mask.card < t.mask.card) ∧
    ∀ u ∈ after, u.mask ⊆ detected → u.mask.card ≤ t.mask.card

theorem select_concat (tables : List Table) (t : Table) (detected : CapabilitySet) :
    select (tables ++ [t]) detected =
      if t.mask ⊆ detected then better (select tables detected) t else select tables detected := by
  by_cases runs : t.mask ⊆ detected <;> simp [select, List.filter_append, Table.runsOn, runs]

theorem Best.mem {tables : List Table} {detected : CapabilitySet} {t : Table}
    (best : Best tables detected t) : t ∈ tables := by
  obtain ⟨before, after, rfl, -⟩ := best
  simp

theorem Best.runs {tables : List Table} {detected : CapabilitySet} {t : Table}
    (best : Best tables detected t) : t.mask ⊆ detected := by
  obtain ⟨_, _, _, runs, _⟩ := best
  exact runs

theorem Best.card_le {tables : List Table} {detected : CapabilitySet} {t u : Table}
    (best : Best tables detected t) (member : u ∈ tables) (runs : u.mask ⊆ detected) :
    u.mask.card ≤ t.mask.card := by
  obtain ⟨before, after, rfl, -, fewer, most⟩ := best
  rcases List.mem_append.mp member with early | late
  · exact Nat.le_of_lt (fewer u early runs)
  · rcases List.mem_cons.mp late with rfl | later
    · exact Nat.le_refl _
    · exact most u later runs

theorem Best.concat {tables : List Table} {detected : CapabilitySet} {b t : Table}
    (best : Best tables detected b) (less : t.mask ⊆ detected → t.mask.card ≤ b.mask.card) :
    Best (tables ++ [t]) detected b := by
  obtain ⟨before, after, rfl, runs, fewer, most⟩ := best
  refine ⟨before, after ++ [t], by simp, runs, fewer, ?_⟩
  intro u member uruns
  rcases List.mem_append.mp member with early | last
  · exact most u early uruns
  · rw [List.mem_singleton.mp last] at uruns ⊢
    exact less uruns

/-- The invariant of the selection: what it keeps is the best of the tables it has seen. -/
theorem select_spec (tables : List Table) (detected : CapabilitySet) :
    match select tables detected with
    | some t => Best tables detected t
    | none => ∀ u ∈ tables, ¬ u.mask ⊆ detected := by
  induction tables using List.reverseRecOn with
  | nil => simp [select]
  | append_singleton tables t ih =>
    rw [select_concat]
    by_cases runs : t.mask ⊆ detected
    · rw [if_pos runs]
      cases kept : select tables detected with
      | none =>
        rw [kept] at ih
        exact ⟨tables, [], rfl, runs, fun u member hu => absurd hu (ih u member), by simp⟩
      | some b =>
        rw [kept] at ih
        by_cases more : t.mask.card ≤ b.mask.card
        · rw [better, if_pos more]
          exact ih.concat fun _ => more
        · rw [better, if_neg more]
          refine ⟨tables, [], rfl, runs, fun u member hu => ?_, by simp⟩
          exact Nat.lt_of_le_of_lt (ih.card_le member hu) (Nat.lt_of_not_le more)
    · rw [if_neg runs]
      cases kept : select tables detected with
      | none =>
        rw [kept] at ih
        simpa [or_imp, forall_and, runs] using ih
      | some b =>
        rw [kept] at ih
        exact ih.concat fun truns => absurd truns runs

/-- A list has one best table: of two, each would have to stand before the other. -/
theorem Best.unique {tables : List Table} {detected : CapabilitySet} {t u : Table}
    (first : Best tables detected t) (second : Best tables detected u) : t = u := by
  have firstBest := first
  have secondBest := second
  obtain ⟨before, after, rfl, runs, fewer, -⟩ := first
  obtain ⟨before', after', split, runs', fewer', -⟩ := second
  have tLater : t ∉ before' := fun member =>
    absurd (fewer' t member runs) (Nat.not_lt.mpr (firstBest.card_le secondBest.mem runs'))
  have uLater : u ∉ before := fun member =>
    absurd (fewer u member runs') (Nat.not_lt.mpr (secondBest.card_le firstBest.mem runs))
  rcases List.append_eq_append_iff.mp split with ⟨gap, left, right⟩ | ⟨gap, left, right⟩
  · cases gap with
    | nil => exact (List.cons.inj right).1
    | cons v gap =>
      have same := (List.cons.inj right).1
      exact absurd (by rw [left, same]; simp) tLater
  · cases gap with
    | nil => exact (List.cons.inj right).1.symm
    | cons v gap =>
      have same := (List.cons.inj right).1
      exact absurd (by rw [left, same]; simp) uLater

theorem select_eq_some_iff {tables : List Table} {detected : CapabilitySet} {t : Table} :
    select tables detected = some t ↔ Best tables detected t := by
  have spec := select_spec tables detected
  cases chosen : select tables detected with
  | none =>
    rw [chosen] at spec
    simp only [reduceCtorEq, false_iff]
    exact fun best => spec t best.mem best.runs
  | some b =>
    rw [chosen] at spec
    rw [Option.some.injEq]
    exact ⟨fun same => same ▸ spec, fun best => spec.unique best⟩

theorem exists_select {tables : List Table} {detected : CapabilitySet}
    (accepted : validate tables = .ok ()) (portable : .generic ∈ detected) :
    ∃ t, select tables detected = some t := by
  obtain ⟨-, g, member, mask⟩ := validate_eq_ok_iff.mp accepted
  have spec := select_spec tables detected
  cases chosen : select tables detected with
  | none =>
    rw [chosen] at spec
    exact absurd (mask ▸ CapabilitySet.only_subset portable) (spec g member)
  | some t => exact ⟨t, rfl⟩

theorem exists_best {tables : List Table} {detected : CapabilitySet}
    (accepted : validate tables = .ok ()) (portable : .generic ∈ detected) :
    ∃ t, Best tables detected t := by
  obtain ⟨t, selected⟩ := exists_select accepted portable
  exact ⟨t, select_eq_some_iff.mp selected⟩

theorem builtin_primitives {t : Table} (member : t ∈ builtin) :
    t.primitives = Catalog.all.map (·.filtered t.mask) := by
  simp only [builtin, List.mem_cons, List.not_mem_nil, or_false] at member
  rcases member with rfl | rfl | rfl | rfl | rfl <;> rfl

end Machines
end SimdDispatch
