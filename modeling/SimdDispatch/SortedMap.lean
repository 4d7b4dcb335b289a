/-!
Finite maps from texts, kept as the list of their entries with ascending keys. Texts are compared
character by character, which is also the order of their bytes; equal maps are equal lists.
-/
namespace SimdDispatch

structure SortedMap (β : Type) where
  entries : List (String × β)
  ascending : entries.Pairwise (fun a b => a.1 < b.1)
deriving DecidableEq

namespace SortedMap

variable {β : Type}

private theorem lt_of_not_lt {a b : String} (h : ¬ a < b) (ne : a ≠ b) : b < a :=
  Decidable.byContradiction fun h' => ne (String.le_antisymm (String.not_lt.mp h') (String.not_lt.mp h))

/-- Puts an entry at its place, in place of one with the same key. -/
def place (key : String) (value : β) : List (String × β) → List (String × β)
  | [] => [(key, value)]
  | (k, v) :: rest =>
    if key < k then (key, value) :: (k, v) :: rest
    else if key = k then (key, value) :: rest
    else (k, v) :: place key value rest

theorem mem_place {key : String} {value : β} {entries : List (String × β)} {e : String × β}
    (h : e ∈ place key value entries) : e = (key, value) ∨ e ∈ entries := by
  induction entries with
  | nil => simpa [place] using h
  | cons head rest ih =>
    obtain ⟨k, v⟩ := head
    simp only [place] at h
    split at h
    · simpa using h
    · split at h
      · simp only [List.mem_cons] at h ⊢
        exact h.imp_right .inr
      · simp only [List.mem_cons] at h ⊢
        rcases h with h | h
        · exact .inr (.inl h)
        · exact (ih h).imp_right .inr

theorem ascending_place (key : String) (value : β) {entries : List (String × β)}
    (h : entries.Pairwise (fun a b => a.1 < b.1)) :
    (place key value entries).Pairwise (fun a b => a.1 < b.1) := by
  induction entries with
  | nil => simp [place]
  | cons head rest ih =>
    obtain ⟨k, v⟩ := head
    obtain ⟨below, tail⟩ := List.pairwise_cons.mp h
    simp only [place]
    split
    · rename_i first
      refine List.pairwise_cons.mpr ⟨fun e he => ?_, h⟩
      rcases List.mem_cons.mp he with rfl | he
      · exact first
      · exact String.lt_trans first (below e he)
    · split
      · rename_i same
        subst same
        exact List.pairwise_cons.mpr ⟨below, tail⟩
      · rename_i notFirst other
        refine List.pairwise_cons.mpr ⟨fun e he => ?_, ih tail⟩
        rcases mem_place he with rfl | he
        · exact lt_of_not_lt notFirst other
        · exact below e he

instance : EmptyCollection (SortedMap β) := ⟨⟨[], .nil⟩⟩

instance : Inhabited (SortedMap β) := ⟨∅⟩

def insert (m : SortedMap β) (key : String) (value : β) : SortedMap β :=
  ⟨place key value m.entries, ascending_place key value m.ascending⟩

/-- The map of a list of entries; the last of several with one key stays. -/
def ofList (entries : List (String × β)) : SortedMap β :=
  entries.foldl (fun m (k, v) => m.insert k v) ∅

def keys (m : SortedMap β) : List String := m.entries.map (·.1)

def get? (m : SortedMap β) (key : String) : Option β := m.entries.lookup key

end SortedMap
end SimdDispatch
