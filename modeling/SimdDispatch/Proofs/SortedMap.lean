import Mathlib.Data.List.Induction
import Mathlib.Data.List.Nodup
import SimdDispatch.SortedMap

/-!
Look-up in maps from texts. A map made of a list of entries holds, for every key, the value of the
last entry with that key.
-/
namespace SimdDispatch

theorem lookup_cons_eq {β : Type} (key k : String) (value : β) (entries : List (String × β)) :
    ((key, value) :: entries).lookup k = if k = key then some value else entries.lookup k := by
  by_cases same : k = key
  · simp [same]
  · have other : (k == key) = false := by simpa using same
    simp [List.lookup_cons, same, other]

theorem lookup_of_mem {β : Type} {entries : List (String × β)}
    (distinct : (entries.map (·.1)).Nodup) {key : String} {value : β}
    (member : (key, value) ∈ entries) : entries.lookup key = some value := by
  obtain ⟨before, after, split⟩ := List.append_of_mem member
  rw [List.lookup_eq_some_iff]
  refine ⟨before, after, split, fun entry early => ?_⟩
  rw [split, List.map_append, List.map_cons] at distinct
  have apart := (List.nodup_append.mp distinct).2.2 entry.1 (List.mem_map_of_mem early) key
    List.mem_cons_self
  exact bne_iff_ne.mpr fun same => apart same.symm

namespace SortedMap

variable {β : Type}

theorem keys_pairwise (m : SortedMap β) : m.keys.Pairwise (· < ·) :=
  List.pairwise_map.mpr m.ascending

theorem lookup_place (key k : String) (value : β) (entries : List (String × β)) :
    (place key value entries).lookup k = if k = key then some value else entries.lookup k := by
  induction entries with
  | nil => rw [place, lookup_cons_eq]
  | cons head rest ih =>
    obtain ⟨k', v⟩ := head
    simp only [place]
    split
    · rw [lookup_cons_eq]
    · split
      · rename_i replaced
        subst replaced
        by_cases same : k = key <;> simp [lookup_cons_eq, same]
      · rename_i other
        rw [lookup_cons_eq, ih, lookup_cons_eq]
        by_cases here : k = k'
        · have unlike : k' ≠ key := fun same => other same.symm
          simp [here, unlike]
        · simp [here]

theorem place_last {key : String} {entries : List (String × β)}
    (below : ∀ e ∈ entries, e.1 < key) (value : β) :
    place key value entries = entries ++ [(key, value)] := by
  induction entries with
  | nil => rfl
  | cons head rest ih =>
    obtain ⟨k, v⟩ := head
    obtain ⟨first, others⟩ := List.forall_mem_cons.mp below
    have notBefore : ¬ key < k := fun less => String.lt_irrefl k (String.lt_trans first less)
    have other : key ≠ k := fun same => String.lt_irrefl k (same ▸ first)
    rw [place, if_neg notBefore, if_neg other, ih others, List.cons_append]

/-- A map is the map of its own entries. -/
theorem ofList_entries (m : SortedMap β) : ofList m.entries = m := by
  obtain ⟨entries, ascending⟩ := m
  have kept : (ofList entries).entries = entries := by
    induction entries using List.reverseRecOn with
    | nil => rfl
    | append_singleton entries last ih =>
      obtain ⟨key, value⟩ := last
      obtain ⟨before, -, below⟩ := List.pairwise_append.mp ascending
      have added : ofList (entries ++ [(key, value)]) = (ofList entries).insert key value := by
        rw [ofList, List.foldl_append]
        rfl
      have low : ∀ e ∈ entries, e.1 < key :=
        fun e member => below e member (key, value) (List.mem_singleton_self _)
      calc (ofList (entries ++ [(key, value)])).entries
          = place key value (ofList entries).entries := by rw [added, insert]
        _ = entries ++ [(key, value)] := by rw [ih before, place_last low]
  cases kept' : ofList entries with
  | mk found _ =>
    rw [kept'] at kept
    cases kept
    rfl

theorem get?_insert (m : SortedMap β) (key k : String) (value : β) :
    (m.insert key value).get? k = if k = key then some value else m.get? k :=
  lookup_place key k value m.entries

theorem get?_ofList (entries : List (String × β)) (k : String) :
    (ofList entries).get? k = entries.reverse.lookup k := by
  induction entries using List.reverseRecOn with
  | nil => rfl
  | append_singleton entries last ih =>
    obtain ⟨key, value⟩ := last
    have added : ofList (entries ++ [(key, value)]) = (ofList entries).insert key value := by
      rw [ofList, List.foldl_append]
      rfl
    rw [added, get?_insert, ih, List.reverse_append, List.reverse_singleton, List.singleton_append,
      lookup_cons_eq]

theorem get?_ofList_of_mem {entries : List (String × β)}
    (distinct : (entries.map (·.1)).Nodup) {key : String} {value : β}
    (member : (key, value) ∈ entries) : (ofList entries).get? key = some value := by
  rw [get?_ofList]
  apply lookup_of_mem
  · rw [List.map_reverse]
    exact List.nodup_reverse.mpr distinct
  · exact List.mem_reverse.mpr member

theorem mem_of_mem_keys_ofList {entries : List (String × β)} {key : String}
    (listed : key ∈ (ofList entries).keys) : ∃ value, (key, value) ∈ entries := by
  obtain ⟨⟨_, value⟩, present, rfl⟩ := List.mem_map.mp listed
  have distinct : (ofList entries).keys.Nodup :=
    (ofList entries).keys_pairwise.imp fun less => String.ne_of_lt less
  have found : (ofList entries).get? _ = some value := lookup_of_mem distinct present
  rw [get?_ofList, List.lookup_eq_some_iff] at found
  obtain ⟨before, after, split, -⟩ := found
  exact ⟨value, List.mem_reverse.mp (by rw [split]; simp)⟩

end SortedMap
end SimdDispatch
