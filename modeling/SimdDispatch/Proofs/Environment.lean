import SimdDispatch.Config.Environment
import SimdDispatch.Proofs.Loose

/-!
What environment variables hold at a path of keys. Where no variable addresses a part of the way,
the variables that address the path itself or something below it decide what is there, the last of
them above the others.
-/
namespace SimdDispatch

open Setting

namespace Environment

def path? (name : String) : Option (List String) := (keys? name).map fun (first, more) => first :: more

/-- A variable for a path of keys, or for one that goes on from there. -/
def reaches (path : List String) (name : String) : Bool := (path? name).any (path.isPrefixOf ·)

/-- The value of the first variable for a path of keys. -/
def value? (environment : Environment) (path : List String) : Option Setting := do
  let (_, value) ← environment.find? fun v => path? v.1 = some path
  (Loose.read value).toOption

/-- None of the variables is for a part of the way. -/
def Clears (path : List String) (environment : Environment) : Prop :=
  ∀ v ∈ environment, ∀ spelled ∈ path? v.1, spelled <+: path → spelled = path

instance (path : List String) (environment : Environment) : Decidable (Clears path environment) :=
  inferInstanceAs (Decidable (∀ v ∈ environment, ∀ spelled ∈ path? v.1,
    spelled <+: path → spelled = path))

variable {name value key : String} {path more : List String} {layer : Settings} {x : Setting}

theorem nested_distinct (distinct : x.Distinct) : (Settings.nested key x more).Distinct := by
  induction more generalizing key with
  | nil => exact ⟨List.nodup_singleton key, by simpa [Settings.nested] using distinct⟩
  | cons next more ih =>
    exact ⟨List.nodup_singleton key, by simpa [Settings.nested] using distinct_table.mpr ih⟩

theorem settingsOf_distinct (done : settingsOf name value = .ok layer) : layer.Distinct := by
  unfold settingsOf at done
  split at done
  · cases done
    exact Settings.Distinct.nil
  · cases read : Loose.read value with
    | error e =>
      rw [read] at done
      cases done
    | ok v =>
      rw [read] at done
      cases done
      exact nested_distinct (Loose.read_distinct read)

theorem nested_passable (clear : key :: more <+: path → key :: more = path) :
    Passable path (some (.table (Settings.nested key x more))) := by
  induction more generalizing key path with
  | nil =>
    cases path with
    | nil => trivial
    | cons first path =>
      refine ⟨_, rfl, ?_⟩
      rw [Settings.nested, lookup_cons_eq]
      split
      · rename_i same
        subst same
        have done : path = [] := by
          have whole := clear (List.cons_prefix_cons.mpr ⟨rfl, List.nil_prefix⟩)
          exact (List.cons.inj whole).2.symm
        rw [done]
        trivial
      · exact passable_none path
  | cons next more ih =>
    cases path with
    | nil => trivial
    | cons first path =>
      refine ⟨_, rfl, ?_⟩
      rw [Settings.nested, lookup_cons_eq]
      split
      · rename_i same
        subst same
        refine ih fun further => ?_
        exact (List.cons.inj (clear (List.cons_prefix_cons.mpr ⟨rfl, further⟩))).2
      · exact passable_none path

theorem along_nested_self (key : String) (more : List String) (x : Setting) :
    along (key :: more) (some (.table (Settings.nested key x more))) = some x := by
  induction more generalizing key with
  | nil => simp [along, Settings.nested]
  | cons next more ih =>
    rw [along, Settings.nested, List.lookup_cons_self]
    exact ih next

/-- How it stands at a path of which settings tell nothing themselves: there is a table if they tell
of something below it, and nothing changes if they do not. -/
def Settles (reached : Prop) (before after : Option Setting) : Prop :=
  (reached ∧ ∃ t, after = some (.table t)) ∨ (¬ reached ∧ after = before)

theorem along_nested_other (clear : key :: more <+: path → key :: more = path) (away : path ≠ [])
    (other : key :: more ≠ path) :
    Settles (path <+: key :: more) none (along path (some (.table (Settings.nested key x more)))) := by
  induction more generalizing key path with
  | nil =>
    obtain ⟨first, path, rfl⟩ := List.exists_cons_of_ne_nil away
    have same : first ≠ key := by
      rintro rfl
      exact other (clear (List.cons_prefix_cons.mpr ⟨rfl, List.nil_prefix⟩))
    refine .inr ⟨fun reached => same (List.cons_prefix_cons.mp reached).1, ?_⟩
    simp [along, Settings.nested, lookup_cons_eq, same, along_none]
  | cons next more ih =>
    obtain ⟨first, path, rfl⟩ := List.exists_cons_of_ne_nil away
    by_cases same : first = key
    · subst same
      rw [along, Settings.nested, List.lookup_cons_self, List.cons_prefix_cons]
      simp only [true_and]
      cases path with
      | nil => exact .inl ⟨List.nil_prefix, _, rfl⟩
      | cons second path =>
        refine ih (fun further => ?_) (List.cons_ne_nil _ _) fun whole => other (congrArg _ whole)
        exact (List.cons.inj (clear (List.cons_prefix_cons.mpr ⟨rfl, further⟩))).2
    · refine .inr ⟨fun reached => same (List.cons_prefix_cons.mp reached).1, ?_⟩
      simp [along, Settings.nested, lookup_cons_eq, same, along_none]

structure HoldsAt (path : List String) (name value : String) (layer : Settings) : Prop where
  distinct : layer.Distinct
  passable : Passable path (some (.table layer))
  self : path? name = some path →
    ∃ x, Loose.read value = .ok x ∧ along path (some (.table layer)) = some x
  other : path? name ≠ some path →
    Settles (reaches path name = true) none (along path (some (.table layer)))

theorem holdsAt_of_settingsOf (done : settingsOf name value = .ok layer) (away : path ≠ [])
    (clear : ∀ spelled ∈ path? name, spelled <+: path → spelled = path) :
    HoldsAt path name value layer := by
  have distinct := settingsOf_distinct done
  unfold settingsOf at done
  split at done
  · rename_i unspelled
    have absent : path? name = none := by rw [path?, unspelled, Option.map_none]
    obtain rfl := Except.ok.inj done
    obtain ⟨first, rest, rfl⟩ := List.exists_cons_of_ne_nil away
    refine ⟨distinct, ⟨_, rfl, passable_none rest⟩, fun same => ?_, fun _ => .inr ⟨?_, ?_⟩⟩
    · rw [absent] at same
      cases same
    · simp [reaches, absent]
    · exact along_none rest
  · rename_i first more spelled
    have named : path? name = some (first :: more) := by rw [path?, spelled, Option.map_some]
    have reached : reaches path name = true ↔ path <+: first :: more := by
      simp [reaches, named]
    cases read : Loose.read value with
    | error e =>
      rw [read] at done
      cases done
    | ok x =>
      rw [read] at done
      obtain rfl := Except.ok.inj done
      refine ⟨distinct, nested_passable (clear _ named), fun same => ⟨x, read, ?_⟩, fun unlike => ?_⟩
      · rw [named] at same
        obtain rfl := Option.some.inj same
        exact along_nested_self first more x
      · rw [reached]
        refine along_nested_other (clear _ named) away fun same => unlike ?_
        rw [named, same]

section Layers

variable {environment : Environment} {layers : List Settings} {start : Settings}

abbrev Layers (path : List String) (environment : Environment) (layers : List Settings) : Prop :=
  List.Forall₂ (fun v layer => HoldsAt path v.1 v.2 layer) environment layers

theorem layers_of_settings {upper : Settings} (done : settings environment = .ok upper)
    (away : path ≠ []) (clear : Clears path environment) :
    ∃ layers, Layers path environment layers ∧ upper = layers.foldl Settings.merge [] := by
  obtain ⟨layers, made, returned⟩ := bind_success done
  obtain rfl := Except.ok.inj returned
  refine ⟨layers, ?_, rfl⟩
  have pairs := mapM_eq_ok_iff.mp made
  clear done made returned
  induction pairs with
  | nil => exact .nil
  | cons set _ ih =>
    obtain ⟨first, others⟩ := List.forall_mem_cons.mp clear
    exact .cons (holdsAt_of_settingsOf set away first) (ih others)

theorem along_merge (holds : HoldsAt path name value layer) (start : Settings) :
    along path (some (.table (Settings.merge start layer))) =
      (along path (some (.table layer))).elim (along path (some (.table start))) fun v =>
        some (Setting.over (along path (some (.table start))) v) := by
  have merged := along_over (distinct_table.mpr holds.distinct) holds.passable (some (.table start))
  simpa only [Setting.over] using merged

/-- Variables none of which is for the path itself put a table there, or leave what is there. -/
theorem foldl_settles (pairs : Layers path environment layers)
    (unaddressed : ∀ v ∈ environment, path? v.1 ≠ some path) (start : Settings) :
    Settles (∃ v ∈ environment, reaches path v.1 = true) (along path (some (.table start)))
      (along path (some (.table (layers.foldl Settings.merge start)))) := by
  induction pairs generalizing start with
  | nil => exact .inr ⟨by simp, rfl⟩
  | @cons v layer env layers holds _ ih =>
    obtain ⟨first, others⟩ := List.forall_mem_cons.mp unaddressed
    have merged := along_merge holds start
    rw [List.foldl_cons]
    rcases ih others (Settings.merge start layer) with ⟨later, table⟩ | ⟨unreached, same⟩
    · obtain ⟨w, member, reached⟩ := later
      exact .inl ⟨⟨w, List.mem_cons_of_mem _ member, reached⟩, table⟩
    · rcases holds.other first with ⟨reached, t, found⟩ | ⟨apart, found⟩
      · refine .inl ⟨⟨v, List.mem_cons_self, reached⟩, ?_⟩
        obtain ⟨u, table⟩ := over_table (along path (some (.table start))) t
        exact ⟨u, by rw [same, merged, found, Option.elim_some, table]⟩
      · refine .inr ⟨?_, ?_⟩
        · rintro ⟨w, member, reached⟩
          rcases List.mem_cons.mp member with rfl | later
          · exact apart reached
          · exact unreached ⟨w, later, reached⟩
        · rw [same, merged, found, Option.elim_none]

theorem value?_cons_self {environment : Environment} (here : path? name = some path)
    (read : Loose.read value = .ok x) : value? ((name, value) :: environment) path = some x := by
  simp [value?, here, read, Except.toOption]

theorem value?_cons_other {environment : Environment} (other : path? name ≠ some path)
    (value : String) : value? ((name, value) :: environment) path = value? environment path := by
  simp [value?, other]

theorem unaddressed_of_single {environment : Environment} (here : path? name = some path)
    (single : (((name, value) :: environment).filter fun v => path? v.1 = some path).length ≤ 1) :
    ∀ v ∈ environment, path? v.1 ≠ some path := by
  rw [List.filter_cons_of_pos (by simpa using here), List.length_cons] at single
  intro v member same
  have listed : v ∈ environment.filter fun v => path? v.1 = some path :=
    List.mem_filter.mpr ⟨member, by simpa using same⟩
  have positive := List.length_pos_of_mem listed
  omega

/-- Where at most one variable is for a path, and no table is there in the end, what is there is the
value of that variable, or what was there before. -/
theorem foldl_value (pairs : Layers path environment layers)
    (single : (environment.filter fun v => path? v.1 = some path).length ≤ 1) (start : Settings)
    (plain : ∀ t, along path (some (.table (layers.foldl Settings.merge start))) ≠
      some (.table t)) :
    along path (some (.table (layers.foldl Settings.merge start))) =
      (value? environment path).or (along path (some (.table start))) := by
  induction pairs generalizing start with
  | nil => rfl
  | @cons v layer env layers holds rest ih =>
    have merged := along_merge holds start
    rw [List.foldl_cons] at plain ⊢
    by_cases here : path? v.1 = some path
    · -- the one variable for the path: those after it put a table there or change nothing
      obtain ⟨x, read, found⟩ := holds.self here
      have others := unaddressed_of_single here single
      rcases foldl_settles rest others (Settings.merge start layer) with
        ⟨-, t, table⟩ | ⟨-, same⟩
      · exact absurd table (plain t)
      · rw [same, merged, found, Option.elim_some] at plain ⊢
        rw [value?_cons_self here read, Option.some_or]
        exact congrArg some (over_of_not_table fun t table => plain t (congrArg some table))
    · rw [List.filter_cons_of_neg (by simpa using here)] at single
      have remaining := ih single (Settings.merge start layer) plain
      rw [value?_cons_other here, remaining]
      cases later : value? env path with
      | some x => rfl
      | none =>
        rw [later, Option.none_or, merged] at remaining
        rw [Option.none_or, Option.none_or, merged]
        rcases holds.other here with ⟨-, t, found⟩ | ⟨-, found⟩
        · -- without a variable for the path this table would be there in the end
          obtain ⟨u, table⟩ := over_table (along path (some (.table start))) t
          rw [found, Option.elim_some, table] at remaining
          exact absurd remaining (plain u)
        · rw [found, Option.elim_none]

theorem foldl_passable (pairs : Layers path environment layers) (distinct : start.Distinct)
    (passable : Passable path (some (.table start))) :
    (layers.foldl Settings.merge start).Distinct ∧
      Passable path (some (.table (layers.foldl Settings.merge start))) := by
  induction pairs generalizing start with
  | nil => exact ⟨distinct, passable⟩
  | cons holds _ ih =>
    refine ih (Settings.distinct_merge distinct holds.distinct) ?_
    have merged := passable_over (distinct_table.mpr holds.distinct) passable holds.passable
    simpa only [Setting.over] using merged

end Layers

section Settings

variable {environment : Environment} {upper : Settings}

theorem along_empty (away : path ≠ []) : along path (some (.table [])) = none := by
  obtain ⟨first, rest, rfl⟩ := List.exists_cons_of_ne_nil away
  exact along_none rest

theorem settings_passable (done : settings environment = .ok upper) (away : path ≠ [])
    (clear : Clears path environment) :
    upper.Distinct ∧ Passable path (some (.table upper)) := by
  obtain ⟨layers, pairs, rfl⟩ := layers_of_settings done away clear
  refine foldl_passable pairs Settings.Distinct.nil ?_
  obtain ⟨first, rest, rfl⟩ := List.exists_cons_of_ne_nil away
  exact ⟨[], rfl, passable_none rest⟩

theorem settings_settles (done : settings environment = .ok upper) (away : path ≠ [])
    (clear : Clears path environment) (unaddressed : ∀ v ∈ environment, path? v.1 ≠ some path) :
    Settles (∃ v ∈ environment, reaches path v.1 = true) none (along path (some (.table upper))) := by
  obtain ⟨layers, pairs, rfl⟩ := layers_of_settings done away clear
  have settles := foldl_settles pairs unaddressed []
  rwa [along_empty away] at settles

theorem settings_value (done : settings environment = .ok upper) (away : path ≠ [])
    (clear : Clears path environment)
    (single : (environment.filter fun v => path? v.1 = some path).length ≤ 1)
    (plain : ∀ t, along path (some (.table upper)) ≠ some (.table t)) :
    along path (some (.table upper)) = value? environment path := by
  obtain ⟨layers, pairs, rfl⟩ := layers_of_settings done away clear
  rw [foldl_value pairs single [] plain, along_empty away, Option.or_none]

/-- No variable is for the table around a place, or for a part of the way to it. -/
theorem Clears.parent (clear : Clears (path ++ [key]) environment) :
    Clears path environment ∧ ∀ v ∈ environment, path? v.1 ≠ some path := by
  have never (v : String × String) (member : v ∈ environment) (spelled : List String)
      (named : path? v.1 = some spelled) : ¬ spelled <+: path := by
    intro part
    have whole := clear v member spelled named (part.trans (List.prefix_append path [key]))
    have longer := part.length_le
    rw [whole, List.length_append, List.length_singleton] at longer
    omega
  exact ⟨fun v member spelled named part => absurd part (never v member spelled named),
    fun v member named => never v member path named (List.prefix_refl path)⟩

def above (lower : Settings) (v : String × String) : Except Loose.SplitCharacter Settings :=
  Settings.merge lower <$> settingsOf v.1 v.2

theorem foldlM_above (environment : Environment) (start : Settings) :
    environment.foldlM above start =
      (List.foldl Settings.merge start ·) <$> environment.mapM fun v => settingsOf v.1 v.2 := by
  induction environment generalizing start with
  | nil => rfl
  | cons v environment ih =>
    rw [List.foldlM_cons, List.mapM_cons, above]
    cases settingsOf v.1 v.2 with
    | error e => rfl
    | ok layer =>
      refine (ih (Settings.merge start layer)).trans ?_
      cases environment.mapM fun v => settingsOf v.1 v.2 <;> rfl

theorem settings_eq_foldlM (environment : Environment) :
    settings environment = environment.foldlM above [] := by
  rw [foldlM_above, settings]
  cases environment.mapM fun v => settingsOf v.1 v.2 <;> rfl

/-- A variable whose name spells no keys sets nothing. -/
theorem settings_filter (environment : Environment) :
    settings environment = settings (environment.filter fun v => (path? v.1).isSome) := by
  have skipped (start : Settings) : environment.foldlM above start =
      (environment.filter fun v => (path? v.1).isSome).foldlM above start := by
    induction environment generalizing start with
    | nil => rfl
    | cons v environment ih =>
      cases spelled : keys? v.1 with
      | some keys =>
        rw [List.filter_cons_of_pos (by simp [path?, spelled]), List.foldlM_cons, List.foldlM_cons]
        exact congrArg (above start v >>= ·) (funext ih)
      | none =>
        have empty : above start v = .ok start := by
          simp only [above, settingsOf, spelled]
          exact congrArg Except.ok (by rw [Settings.merge])
        rw [List.filter_cons_of_neg (by simp [path?, spelled]), List.foldlM_cons, empty]
        exact ih start
  rw [settings_eq_foldlM, settings_eq_foldlM, skipped]

end Settings

end Environment
end SimdDispatch
