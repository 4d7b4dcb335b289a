import SimdDispatch.Proofs.SortedMap

/-!
Lists of entries under texts. Settings and the tables that documents build are put together by one
operation, which keeps their keys different from each other.
-/
namespace SimdDispatch.Entries

variable {β : Type} {entries : List (String × β)} {key : String}

theorem mem_of_lookup {value : β} (found : entries.lookup key = some value) :
    (key, value) ∈ entries := by
  obtain ⟨before, after, split, -⟩ := List.lookup_eq_some_iff.mp found
  exact split ▸ List.mem_append_right _ List.mem_cons_self

theorem lookup_eq_none : entries.lookup key = none ↔ key ∉ entries.map (·.1) := by
  rw [List.lookup_eq_none_iff]
  constructor
  · rintro absent listed
    obtain ⟨e, member, rfl⟩ := List.mem_map.mp listed
    exact absurd (absent e member) (by simp)
  · intro absent e member
    exact bne_iff_ne.mpr fun same => absent (same ▸ List.mem_map_of_mem member)

theorem get?_ofList (distinct : (entries.map (·.1)).Nodup) (key : String) :
    (SortedMap.ofList entries).get? key = entries.lookup key := by
  cases held : entries.lookup key with
  | some value => exact SortedMap.get?_ofList_of_mem distinct (mem_of_lookup held)
  | none =>
    refine lookup_eq_none.mpr fun listed => ?_
    obtain ⟨value, member⟩ := SortedMap.mem_of_mem_keys_ofList listed
    exact lookup_eq_none.mp held (List.mem_map_of_mem member)

theorem lookup_mapM {γ : Type} {read : β → Option γ} {found : List (String × γ)}
    (done : (entries.mapM fun (k, v) => do return (k, ← read v)) = some found) :
    found.map (·.1) = entries.map (·.1) ∧
      ∀ key, (entries.lookup key = none ∧ found.lookup key = none) ∨
        ∃ v w, entries.lookup key = some v ∧ read v = some w ∧ found.lookup key = some w := by
  induction entries generalizing found with
  | nil =>
    cases done
    exact ⟨rfl, fun _ => .inl ⟨rfl, rfl⟩⟩
  | cons entry rest ih =>
    obtain ⟨k, v⟩ := entry
    simp only [List.mapM_cons, Option.bind_eq_bind, Option.pure_def, Option.bind_eq_some_iff,
      Option.some.injEq] at done
    obtain ⟨_, ⟨w, taken, rfl⟩, others, following, rfl⟩ := done
    obtain ⟨keys, each⟩ := ih following
    refine ⟨by rw [List.map_cons, List.map_cons, keys], fun key => ?_⟩
    rw [lookup_cons_eq, lookup_cons_eq]
    split
    · exact .inr ⟨v, w, rfl, taken, rfl⟩
    · exact each key

/-- The entries with one more at their end, or replaced where it stands. -/
def put (key : String) (value : β) : List (String × β) → List (String × β)
  | [] => [(key, value)]
  | (k, v) :: rest => if k = key then (key, value) :: rest else (k, v) :: put key value rest

theorem lookup_put (key k : String) (value : β) (entries : List (String × β)) :
    (put key value entries).lookup k = if k = key then some value else entries.lookup k := by
  induction entries with
  | nil => rw [put, lookup_cons_eq]
  | cons entry rest ih =>
    obtain ⟨k', v⟩ := entry
    rw [put]
    split
    · rename_i same
      subst same
      by_cases here : k = k' <;> simp [lookup_cons_eq, here]
    · rename_i other
      rw [lookup_cons_eq, lookup_cons_eq, ih]
      by_cases here : k = k'
      · have unlike : k' ≠ key := other
        simp [here, unlike]
      · simp [here]

theorem put_of_fresh (fresh : key ∉ entries.map (·.1)) (value : β) :
    put key value entries = entries ++ [(key, value)] := by
  induction entries with
  | nil => rfl
  | cons entry rest ih =>
    obtain ⟨k, v⟩ := entry
    rw [List.map_cons, List.mem_cons, not_or] at fresh
    have other : k ≠ key := fun same => fresh.1 same.symm
    rw [put, if_neg other, ih fresh.2, List.cons_append]

theorem put_last (fresh : key ∉ entries.map (·.1)) (old new : β) :
    put key new (entries ++ [(key, old)]) = entries ++ [(key, new)] := by
  induction entries with
  | nil => exact if_pos rfl
  | cons entry rest ih =>
    obtain ⟨k, v⟩ := entry
    rw [List.map_cons, List.mem_cons, not_or] at fresh
    have other : k ≠ key := fun same => fresh.1 same.symm
    rw [List.cons_append, put, if_neg other, ih fresh.2, List.cons_append]

theorem lookup_last (fresh : key ∉ entries.map (·.1)) (value : β) :
    (entries ++ [(key, value)]).lookup key = some value := by
  rw [List.lookup_append, lookup_eq_none.mpr fresh, Option.none_or]
  exact List.lookup_cons_self

theorem map_put (key : String) (value : β) (entries : List (String × β)) :
    (put key value entries).map (·.1) =
      if key ∈ entries.map (·.1) then entries.map (·.1) else entries.map (·.1) ++ [key] := by
  induction entries with
  | nil => rfl
  | cons entry rest ih =>
    obtain ⟨k, v⟩ := entry
    rw [put]
    split
    · rename_i same
      simp [same]
    · rename_i other
      have unlike : key ≠ k := fun same => other same.symm
      simp only [List.map_cons, ih, List.mem_cons, unlike, false_or]
      split <;> rfl

theorem nodup_put (distinct : (entries.map (·.1)).Nodup) (key : String) (value : β) :
    ((put key value entries).map (·.1)).Nodup := by
  rw [map_put]
  split
  · exact distinct
  · rename_i fresh
    refine List.nodup_append.mpr ⟨distinct, List.nodup_singleton key, fun a held b one same => ?_⟩
    rw [List.mem_singleton.mp one] at same
    exact fresh (same ▸ held)

theorem mem_put {value : β} {e : String × β} (member : e ∈ put key value entries) :
    e = (key, value) ∨ e ∈ entries := by
  induction entries with
  | nil => exact .inl (List.mem_singleton.mp member)
  | cons entry rest ih =>
    obtain ⟨k, v⟩ := entry
    rw [put] at member
    split at member
    · exact (List.mem_cons.mp member).imp_right (List.mem_cons_of_mem _)
    · rcases List.mem_cons.mp member with rfl | later
      · exact .inr List.mem_cons_self
      · exact (ih later).imp_right (List.mem_cons_of_mem _)

end SimdDispatch.Entries
