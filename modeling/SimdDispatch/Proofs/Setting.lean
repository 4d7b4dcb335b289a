import SimdDispatch.Proofs.Entries
import SimdDispatch.Setting

/-!
What tables of settings hold after one is laid over another. The keys of every table, and of the
tables within it, stay different from each other.
-/
namespace SimdDispatch

inductive Setting.Distinct : Setting → Prop
  | flag (b : Bool) : Distinct (.flag b)
  | number : Distinct .number
  | text (s : String) : Distinct (.text s)
  | list {items : List Setting} (each : ∀ s ∈ items, Distinct s) : Distinct (.list items)
  | table {entries : List (String × Setting)} (keys : (entries.map (·.1)).Nodup)
      (each : ∀ e ∈ entries, Distinct e.2) : Distinct (.table entries)

/-- Tables whose keys differ from each other, as do those of the tables in them. -/
structure Settings.Distinct (s : Settings) : Prop where
  keys : (s.map (·.1)).Nodup
  each : ∀ e ∈ s, e.2.Distinct

theorem Setting.distinct_table {s : Settings} : (Setting.table s).Distinct ↔ s.Distinct := by
  constructor
  · intro distinct
    cases distinct with
    | table keys each => exact ⟨keys, each⟩
  · exact fun distinct => .table distinct.keys distinct.each

namespace Settings

theorem insert_eq_put (key : String) (value : Setting) (s : Settings) :
    insert key value s = Entries.put key value s := by
  induction s with
  | nil => rfl
  | cons entry rest ih => rw [insert, Entries.put, ih]

theorem Distinct.of_lookup {s : Settings} (distinct : s.Distinct) {key : String} {value : Setting}
    (found : s.lookup key = some value) : value.Distinct :=
  distinct.each _ (Entries.mem_of_lookup found)

theorem Distinct.insert {s : Settings} (distinct : s.Distinct) (key : String) {value : Setting}
    (inner : value.Distinct) : (insert key value s).Distinct where
  keys := by
    rw [insert_eq_put]
    exact Entries.nodup_put distinct.keys key value
  each e member := by
    rw [insert_eq_put] at member
    rcases Entries.mem_put member with rfl | held
    · exact inner
    · exact distinct.each e held

theorem Distinct.nil : Distinct [] := ⟨List.nodup_nil, fun _ member => absurd member List.not_mem_nil⟩

theorem Distinct.tail {e : String × Setting} {s : Settings} (distinct : Distinct (e :: s)) :
    s.Distinct :=
  ⟨(List.nodup_cons.mp distinct.keys).2,
    fun _ member => distinct.each _ (List.mem_cons_of_mem _ member)⟩

end Settings

theorem Setting.over_none (s : Setting) : Setting.over none s = s := by
  cases s <;> simp only [Setting.over]

theorem Setting.over_table (lower : Option Setting) (entries : Settings) :
    ∃ merged, Setting.over lower (.table entries) = .table merged := by
  unfold Setting.over
  split <;> exact ⟨_, rfl⟩

theorem Setting.over_of_not_table {lower : Option Setting} {upper : Setting}
    (plain : ∀ entries, Setting.over lower upper ≠ .table entries) :
    Setting.over lower upper = upper := by
  cases upper with
  | table entries =>
    obtain ⟨merged, same⟩ := over_table lower entries
    exact absurd same (plain merged)
  | _ => simp only [Setting.over]

mutual

theorem Setting.distinct_over {lower : Option Setting} (below : ∀ s ∈ lower, s.Distinct) :
    ∀ {upper : Setting}, upper.Distinct → (Setting.over lower upper).Distinct
  | .flag b, _ => by simpa only [Setting.over] using .flag b
  | .number, _ => by simpa only [Setting.over] using .number
  | .text s, _ => by simpa only [Setting.over] using .text s
  | .list items, distinct => by simpa only [Setting.over] using distinct
  | .table upper, distinct => by
    have above := Setting.distinct_table.mp distinct
    unfold Setting.over
    split
    · rename_i entries held
      exact Setting.distinct_table.mpr
        (Settings.distinct_merge (Setting.distinct_table.mp (below _ rfl)) above)
    · exact distinct

theorem Settings.distinct_merge {lower : Settings} (below : lower.Distinct) :
    ∀ {upper : Settings}, upper.Distinct → (Settings.merge lower upper).Distinct
  | [], _ => by simpa only [Settings.merge] using below
  | (key, value) :: rest, above => by
    rw [Settings.merge]
    have inner : (Setting.over (lower.lookup key) value).Distinct :=
      Setting.distinct_over (fun s found => below.of_lookup found) (above.each _ List.mem_cons_self)
    exact Settings.distinct_merge (below.insert key inner) above.tail

end

namespace Settings

theorem lookup_merge {upper : Settings} (distinct : (upper.map (·.1)).Nodup) (lower : Settings)
    (k : String) : (merge lower upper).lookup k =
      (upper.lookup k).elim (lower.lookup k) fun v => some (Setting.over (lower.lookup k) v) := by
  induction upper generalizing lower with
  | nil => rw [merge, List.lookup_nil, Option.elim_none]
  | cons entry rest ih =>
    obtain ⟨key, value⟩ := entry
    obtain ⟨fresh, others⟩ := List.nodup_cons.mp distinct
    rw [merge, ih others, insert_eq_put, Entries.lookup_put, lookup_cons_eq]
    by_cases same : k = key
    · subst same
      have absent : rest.lookup k = none := Entries.lookup_eq_none.mpr fresh
      simp [absent]
    · simp [same]

theorem merge_of_apart {lower upper : Settings}
    (distinct : ((lower ++ upper).map (·.1)).Nodup) : merge lower upper = lower ++ upper := by
  induction upper generalizing lower with
  | nil => rw [merge, List.append_nil]
  | cons entry rest ih =>
    obtain ⟨key, value⟩ := entry
    have fresh : key ∉ lower.map (·.1) := by
      rw [List.map_append, List.map_cons, List.nodup_append] at distinct
      exact fun held => distinct.2.2 key held key List.mem_cons_self rfl
    have shape : lower ++ (key, value) :: rest = lower ++ [(key, value)] ++ rest := by simp
    rw [merge, Entries.lookup_eq_none.mpr fresh, Setting.over_none, insert_eq_put,
      Entries.put_of_fresh fresh]
    rw [shape] at distinct ⊢
    exact ih distinct

theorem merge_nil {upper : Settings} (distinct : (upper.map (·.1)).Nodup) :
    merge [] upper = upper := merge_of_apart distinct

end Settings

namespace Setting

/-- The setting to which a path of keys leads from another. -/
def along : List String → Option Setting → Option Setting
  | [], s => s
  | key :: path, some (.table entries) => along path (entries.lookup key)
  | _ :: _, _ => none

theorem along_none (path : List String) : along path none = none := by
  cases path <;> rfl

theorem along_append (path more : List String) (s : Option Setting) :
    along (path ++ more) s = along more (along path s) := by
  induction path generalizing s with
  | nil => rfl
  | cons key path ih =>
    cases s with
    | none => exact (along_none more).symm
    | some s =>
      cases s with
      | table entries => exact ih _
      | _ => exact (along_none more).symm

theorem get?_cons_cons (entries : Settings) (key next : String) (path : List String) :
    entries.get? (key :: next :: path) = match entries.lookup key with
      | some (.table inner) => Settings.get? inner (next :: path)
      | _ => none := rfl

theorem get?_eq_along (entries : Settings) (key : String) (path : List String) :
    entries.get? (key :: path) = along (key :: path) (some (.table entries)) := by
  induction path generalizing entries key with
  | nil => rfl
  | cons next path ih =>
    rw [get?_cons_cons, along]
    cases entries.lookup key with
    | none => rfl
    | some s =>
      cases s with
      | table inner => exact ih inner next
      | _ => rfl

/-- Where a path of keys leads there are nothing but tables on the way, as far as there is
anything. -/
def Passable : List String → Option Setting → Prop
  | [], _ => True
  | _ :: _, none => True
  | key :: path, some s => ∃ entries, s = .table entries ∧ Passable path (entries.lookup key)

theorem passable_none (path : List String) : Passable path none := by
  cases path <;> trivial

theorem along_over {upper : Setting} (distinct : upper.Distinct) {path : List String}
    (passable : Passable path (some upper)) (lower : Option Setting) :
    along path (some (Setting.over lower upper)) =
      (along path (some upper)).elim (along path lower)
        fun v => some (Setting.over (along path lower) v) := by
  induction path generalizing upper lower with
  | nil => rfl
  | cons key path ih =>
    obtain ⟨entries, rfl, further⟩ := passable
    have inner := distinct_table.mp distinct
    -- for what is no table below
    have alone : along path (entries.lookup key) =
        (along path (entries.lookup key)).elim none fun v => some (Setting.over none v) := by
      cases along path (entries.lookup key) with
      | none => rfl
      | some v => rw [Option.elim_some, over_none]
    cases lower with
    | none =>
      rw [over_none]
      exact alone
    | some below =>
      cases below with
      | table held =>
        simp only [Setting.over, along]
        rw [Settings.lookup_merge inner.keys]
        cases found : entries.lookup key with
        | none => simp only [along_none, Option.elim_none]
        | some v =>
          rw [found] at further
          exact ih (inner.of_lookup found) further _
      | _ =>
        simp only [Setting.over]
        exact alone

theorem passable_over {upper : Setting} (distinct : upper.Distinct) {path : List String}
    {lower : Option Setting} (below : Passable path lower) (above : Passable path (some upper)) :
    Passable path (some (Setting.over lower upper)) := by
  induction path generalizing upper lower with
  | nil => trivial
  | cons key path ih =>
    obtain ⟨entries, rfl, further⟩ := above
    have inner := distinct_table.mp distinct
    cases lower with
    | none => exact ⟨entries, over_none _, further⟩
    | some s =>
      obtain ⟨held, rfl, deeper⟩ := below
      refine ⟨Settings.merge held entries, by simp only [Setting.over], ?_⟩
      rw [Settings.lookup_merge inner.keys]
      cases found : entries.lookup key with
      | none => exact deeper
      | some v =>
        rw [found] at further
        exact ih (inner.of_lookup found) deeper further

end Setting
end SimdDispatch
