import SimdDispatch.Config.Sources
import SimdDispatch.Proofs.Toml.Distinct
import SimdDispatch.Proofs.VariableNames

/-!
Which source decides what, setting by setting. At each place of a configuration the variable for it
comes before the file, and the file before the default; the list that a file may give in place of the
table of a preference counts as a whole, and gives way to any variable for something in the table.
-/
namespace SimdDispatch

open Setting

/-- The places of a configuration that hold a single setting. -/
inductive Leaf where
  | forceGeneric
  | disabled
  | machine
  | aligned (primitive : String)
  | unaligned (primitive : String)
deriving DecidableEq

namespace Leaf

def keys : Leaf → List String
  | forceGeneric => ["force_generic"]
  | disabled => ["disabled_capabilities"]
  | machine => ["machine"]
  | aligned primitive => ["overrides", primitive, "aligned"]
  | unaligned primitive => ["overrides", primitive, "unaligned"]

/-- The place of a slot in a list of names that stands for a preference. -/
def slot? : Leaf → Option (String × Nat)
  | aligned primitive => some (primitive, 0)
  | unaligned primitive => some (primitive, 1)
  | _ => none

/-- The name of a slot where a preference is given as a list of names. -/
def listed? (s : Settings) (k : Leaf) : Option Setting := do
  let (primitive, place) ← k.slot?
  match s.get? ["overrides", primitive] with
  | some (.list items) => items[place]?
  | _ => none

/-- What the settings of a file hold at a place: what is there, or what is in the list in place of
the table around it, as long as no variable is for anything in that table. -/
def inFile? (k : Leaf) (environment : Environment) (file : Settings) : Option Setting :=
  (file.get? k.keys).or
    (if environment.any fun v => Environment.reaches k.keys.dropLast v.1 then none
    else k.listed? file)

end Leaf

namespace Config

def valueAt (c : Config) : Leaf → Option Setting
  | .forceGeneric => some (.flag c.forceGeneric)
  | .disabled => some (.list (c.disabled.map .text))
  | .machine => c.machine.map .text
  | .aligned primitive => ((c.overrides.get? primitive).bind Preference.aligned).map .text
  | .unaligned primitive => ((c.overrides.get? primitive).bind Preference.unaligned).map .text

def fileSettings (document : Option String) : Settings :=
  match document.map settingsOf with
  | some (.ok s) => s
  | _ => []

end Config

section Reading

theorem Setting.eq_of_flag? {s : Setting} {b : Bool} (read : s.flag? = some b) : s = .flag b := by
  cases s <;> cases read
  rfl

theorem Setting.eq_of_text? {s : Setting} {t : String} (read : s.text? = some t) : s = .text t := by
  cases s <;> cases read
  rfl

theorem Setting.eq_of_texts? {s : Setting} {ts : List String} (read : s.texts? = some ts) :
    s = .list (ts.map .text) := by
  cases s with
  | list items =>
    rw [Setting.texts?] at read
    refine congrArg Setting.list ?_
    induction items generalizing ts with
    | nil =>
      cases read
      rfl
    | cons item items ih =>
      simp only [List.mapM_cons, Option.bind_eq_bind, Option.pure_def, Option.bind_eq_some_iff,
        Option.some.injEq] at read
      obtain ⟨t, first, others, following, rfl⟩ := read
      rw [eq_of_text? first, ih following, List.map_cons]
  | _ => cases read

theorem Setting.eq_map_of_optional? {α : Type} {read : Setting → Option α} {write : α → Setting}
    (inverse : ∀ s a, read s = some a → s = write a) {held : Option Setting} {found : Option α}
    (done : Setting.optional? read held = some found) : held = found.map write := by
  cases held with
  | none =>
    cases done
    rfl
  | some s =>
    obtain ⟨a, taken, rfl⟩ := Option.map_eq_some_iff.mp done
    rw [inverse s a taken, Option.map_some]

/-- What a slot has under a name: an entry of a table, or the item at its place in a list. -/
def Setting.slot? (name : String) (place : Nat) : Setting → Option Setting
  | .table entries => entries.lookup name
  | .list items => items[place]?
  | _ => none

theorem Preference.slot?_of_ofSetting? {s : Setting} {p : Preference}
    (read : ofSetting? s = some p) :
    s.slot? "aligned" 0 = p.aligned.map .text ∧ s.slot? "unaligned" 1 = p.unaligned.map .text := by
  have settled {first second : Option Setting}
      (read : (do
        let aligned ← Setting.optional? Setting.text? first
        let unaligned ← Setting.optional? Setting.text? second
        return (⟨aligned, unaligned⟩ : Preference)) = some p) :
      first = p.aligned.map .text ∧ second = p.unaligned.map .text := by
    obtain ⟨a, taken, rest⟩ := Option.bind_eq_some_iff.mp read
    obtain ⟨u, given, returned⟩ := Option.bind_eq_some_iff.mp rest
    obtain rfl := Option.some.inj returned
    exact ⟨eq_map_of_optional? (fun _ _ => eq_of_text?) taken,
      eq_map_of_optional? (fun _ _ => eq_of_text?) given⟩
  cases s with
  | table entries => exact settled read
  | list items => exact settled read
  | _ => cases read

theorem Setting.get?_of_overrides? {entries : Settings} (distinct : entries.Distinct)
    {m : SortedMap Preference} (read : Setting.overrides? (.table entries) = some m)
    (primitive : String) :
    (entries.lookup primitive = none ∧ m.get? primitive = none) ∨
    ∃ s p, entries.lookup primitive = some s ∧ Preference.ofSetting? s = some p ∧
      m.get? primitive = some p := by
  rw [Setting.overrides?] at read
  obtain ⟨found, made, returned⟩ := Option.bind_eq_some_iff.mp read
  obtain rfl := Option.some.inj returned
  obtain ⟨keys, each⟩ := Entries.lookup_mapM made
  have nodup : (found.map (·.1)).Nodup := keys ▸ distinct.keys
  rw [Entries.get?_ofList nodup]
  exact each primitive

theorem Config.preference_of_ofSettings? {s : Settings} (distinct : s.Distinct) {c : Config}
    (described : Config.ofSettings? s = some c) (primitive : String) :
    (s.get? ["overrides", primitive] = none ∧ c.overrides.get? primitive = none) ∨
    ∃ v p, s.get? ["overrides", primitive] = some v ∧ Preference.ofSetting? v = some p ∧
      c.overrides.get? primitive = some p := by
  simp only [Config.ofSettings?, Option.bind_eq_bind, Option.pure_def, Option.bind_eq_some_iff,
    Option.some.injEq] at described
  obtain ⟨_, -, _, -, _, -, overrides, read, rfl⟩ := described
  cases held : s.lookup "overrides" with
  | none =>
    rw [held] at read
    cases read
    exact .inl ⟨by simp only [Settings.get?, held], rfl⟩
  | some v =>
    rw [held] at read
    obtain ⟨m, taken, rfl⟩ := Option.map_eq_some_iff.mp read
    cases v with
    | table entries =>
      have inner := distinct_table.mp (distinct.of_lookup held)
      simp only [Settings.get?, held]
      exact Setting.get?_of_overrides? inner taken primitive
    | _ => cases taken

theorem Settings.get?_or_listed (s : Settings) (primitive name : String) (place : Nat) :
    (s.get? ["overrides", primitive, name]).or
        (match s.get? ["overrides", primitive] with
          | some (.list items) => items[place]?
          | _ => none) =
      (s.get? ["overrides", primitive]).bind (Setting.slot? name place) := by
  have further : s.get? ["overrides", primitive, name] =
      along [name] (s.get? ["overrides", primitive]) := by
    rw [get?_eq_along, get?_eq_along]
    exact along_append ["overrides", primitive] [name] _
  rw [further]
  cases s.get? ["overrides", primitive] with
  | none => rfl
  | some v => cases v <;> simp [along, Setting.slot?]

theorem Config.valueAt_ne_table (c : Config) (k : Leaf) (entries : Settings) :
    c.valueAt k ≠ some (.table entries) := by
  intro same
  cases k with
  | forceGeneric => cases same
  | disabled => cases same
  | _ =>
    obtain ⟨_, -, unlike⟩ := Option.map_eq_some_iff.mp same
    cases unlike

/-- A slot of a configuration's preference is what the settings have for it, in either form. -/
theorem Config.slot_of_ofSettings? {s : Settings} (distinct : s.Distinct) {c : Config}
    (described : Config.ofSettings? s = some c) {pick : Preference → Option String} {name : String}
    {place : Nat} (picked : ∀ {v p}, Preference.ofSetting? v = some p →
      v.slot? name place = (pick p).map .text) (primitive : String) :
    ((c.overrides.get? primitive).bind pick).map .text =
      (s.get? ["overrides", primitive]).bind (Setting.slot? name place) := by
  rcases preference_of_ofSettings? distinct described primitive with
    ⟨absent, none⟩ | ⟨v, p, found, read, held⟩
  · rw [absent, none]
    rfl
  · rw [found, held]
    exact (picked read).symm

/-- The settings that describe a configuration hold what it has at each place, or leave it to the
default. -/
theorem Config.valueAt_of_ofSettings? {s : Settings} (distinct : s.Distinct) {c : Config}
    (described : Config.ofSettings? s = some c) (k : Leaf) :
    c.valueAt k = ((s.get? k.keys).or (k.listed? s)).or (({} : Config).valueAt k) := by
  have aligned := slot_of_ofSettings? distinct described
    fun read => (Preference.slot?_of_ofSetting? read).1
  have unaligned := slot_of_ofSettings? distinct described
    fun read => (Preference.slot?_of_ofSetting? read).2
  simp only [Config.ofSettings?, Option.bind_eq_bind, Option.pure_def, Option.bind_eq_some_iff,
    Option.some.injEq] at described
  obtain ⟨flag, forced, names, disabled, name, machine, _, -, rfl⟩ := described
  cases k with
  | forceGeneric =>
    have held : s.get? ["force_generic"] = flag.map .flag :=
      eq_map_of_optional? (fun _ _ => eq_of_flag?) forced
    rw [Leaf.keys, held]
    cases flag <;> rfl
  | disabled =>
    have held : s.get? ["disabled_capabilities"] = names.map fun ts => .list (ts.map .text) :=
      eq_map_of_optional? (fun _ _ => eq_of_texts?) disabled
    rw [Leaf.keys, held]
    cases names <;> rfl
  | machine =>
    have held : s.get? ["machine"] = name.map .text :=
      eq_map_of_optional? (fun _ _ => eq_of_text?) machine
    rw [Leaf.keys, held]
    cases name <;> rfl
  | aligned primitive =>
    refine (aligned primitive).trans ?_
    rw [← s.get?_or_listed]
    exact Option.or_none.symm
  | unaligned primitive =>
    refine (unaligned primitive).trans ?_
    rw [← s.get?_or_listed]
    exact Option.or_none.symm

end Reading

section Sources

variable {file upper : Settings}

theorem Config.along_defaults (key next : String) (path : List String) :
    along (next :: path) (defaults.lookup key) = none := by
  cases held : defaults.lookup key with
  | none => rfl
  | some s =>
    cases s with
    | table entries =>
      obtain rfl := defaults_flat held
      exact along_none path
    | _ => rfl

theorem Settings.get?_defaults (distinct : file.Distinct) (key : String) (path : List String) :
    (merge Config.defaults file).get? (key :: path) =
      (file.get? (key :: path)).or (Settings.get? Config.defaults (key :: path)) := by
  rw [get?_eq_along, get?_eq_along, get?_eq_along]
  simp only [along, Config.lookup_merge_defaults distinct]
  cases file.lookup key with
  | none => rw [Option.none_or, along_none, Option.none_or]
  | some v =>
    rw [Option.some_or]
    cases path with
    | nil => rfl
    | cons next path => rw [Config.along_defaults, Option.or_none]

theorem Leaf.get?_defaults (k : Leaf) :
    Settings.get? Config.defaults k.keys = ({} : Config).valueAt k := by
  cases k <;> rfl

theorem Config.ofSettings?_of_ofLayers {layers : List Settings} {c : Config}
    (loaded : ofLayers layers = .ok c) :
    ofSettings? (layers.foldl Settings.merge defaults) = some c := by
  unfold ofLayers at loaded
  split at loaded
  · cases loaded
  · rename_i described
    obtain ⟨-, -, returned⟩ := bind_success loaded
    cases returned
    exact described

/-- A configuration that is loaded is described by the variables above the file above the
defaults. -/
theorem Config.described_of_layered {document : Option String} {environment : Environment}
    {c : Config} (loaded : layered document environment = .ok c) :
    ∃ upper, environment.settings = .ok upper ∧ (fileSettings document).Distinct ∧
      ofSettings? (Settings.merge (Settings.merge defaults (fileSettings document)) upper) =
        some c := by
  unfold layered at loaded
  split at loaded
  · cases loaded
  · rename_i upper set
    refine ⟨upper, set, ?_⟩
    have accepted : under upper document = .ok c := by
      cases made : under upper document with
      | error e =>
        rw [made] at loaded
        cases loaded
      | ok d =>
        rw [made] at loaded
        cases loaded
        rfl
    cases document with
    | none => exact ⟨Settings.Distinct.nil, ofSettings?_of_ofLayers accepted⟩
    | some text =>
      obtain ⟨file, held, layers⟩ := bind_success accepted
      have same : fileSettings (some text) = file := by
        simp only [fileSettings, Option.map_some, held]
      rw [same]
      exact ⟨settingsOf_distinct held, ofSettings?_of_ofLayers layers⟩

end Sources

namespace Leaf

theorem keys_ne_nil (k : Leaf) : k.keys ≠ [] := by
  cases k <;> exact List.cons_ne_nil _ _

end Leaf

namespace Config

open Environment

theorem defaults_distinct : Settings.Distinct defaults where
  keys := by decide
  each e member := by
    simp only [defaults, List.mem_cons, List.not_mem_nil, or_false] at member
    rcases member with rfl | rfl | rfl
    · exact .flag false
    · exact .list (List.forall_mem_nil _)
    · exact .table List.nodup_nil (List.forall_mem_nil _)

section Merged

variable {environment : Environment} {upper lower : Settings} {path : List String}

theorem get?_merge (set : environment.settings = .ok upper) {key : String}
    (clear : environment.Clears (key :: path)) (lower : Settings) :
    (Settings.merge lower upper).get? (key :: path) =
      (along (key :: path) (some (.table upper))).elim (lower.get? (key :: path)) fun v =>
        some (Setting.over (lower.get? (key :: path)) v) := by
  obtain ⟨distinct, passable⟩ := settings_passable set (List.cons_ne_nil key path) clear
  have merged := along_over (distinct_table.mpr distinct) passable (some (.table lower))
  rw [get?_eq_along, get?_eq_along]
  simpa only [Setting.over] using merged

/-- The table around a place is there if a variable is for something in it, and is otherwise as it
was. -/
theorem get?_merge_parent (set : environment.settings = .ok upper) {first second last : String}
    (clear : environment.Clears [first, second, last]) (lower : Settings) :
    if environment.any fun v => reaches [first, second] v.1 then
      ∃ t, (Settings.merge lower upper).get? [first, second] = some (.table t)
    else (Settings.merge lower upper).get? [first, second] = lower.get? [first, second] := by
  have split : environment.Clears ([first, second] ++ [last]) := clear
  obtain ⟨clear, unaddressed⟩ := split.parent
  have merged := get?_merge set clear lower
  rcases settings_settles set (List.cons_ne_nil _ _) clear unaddressed with
    ⟨⟨v, member, reached⟩, t, table⟩ | ⟨unreached, absent⟩
  · obtain ⟨u, covered⟩ := over_table (lower.get? [first, second]) t
    rw [if_pos (List.any_eq_true.mpr ⟨v, member, reached⟩)]
    exact ⟨u, by rw [merged, table, Option.elim_some, covered]⟩
  · rw [if_neg fun any => unreached (List.any_eq_true.mp any), merged, absent, Option.elim_none]

theorem listed?_merge (set : environment.settings = .ok upper) (k : Leaf)
    (clear : environment.Clears k.keys) (lower : Settings) :
    k.listed? (Settings.merge lower upper) =
      if environment.any fun v => reaches k.keys.dropLast v.1 then none else k.listed? lower := by
  have slot (primitive : String) (place : Nat)
      (parent : if environment.any fun v => reaches ["overrides", primitive] v.1 then
          ∃ t, (Settings.merge lower upper).get? ["overrides", primitive] = some (.table t)
        else (Settings.merge lower upper).get? ["overrides", primitive] =
          lower.get? ["overrides", primitive]) :
      (match (Settings.merge lower upper).get? ["overrides", primitive] with
        | some (.list items) => items[place]?
        | _ => none) =
      if environment.any fun v => reaches ["overrides", primitive] v.1 then none
      else match lower.get? ["overrides", primitive] with
        | some (.list items) => items[place]?
        | _ => none := by
    split at parent
    · rename_i reached
      obtain ⟨t, table⟩ := parent
      rw [table, if_pos reached]
    · rename_i unreached
      rw [parent, if_neg unreached]
  cases k with
  | aligned primitive => exact slot primitive 0 (get?_merge_parent set clear lower)
  | unaligned primitive => exact slot primitive 1 (get?_merge_parent set clear lower)
  | _ => exact (ite_self none).symm

theorem listed?_defaults {file : Settings} (distinct : file.Distinct) (k : Leaf) :
    k.listed? (Settings.merge defaults file) = k.listed? file := by
  have same (primitive : String) : (Settings.merge defaults file).get? ["overrides", primitive] =
      file.get? ["overrides", primitive] := by
    rw [Settings.get?_defaults distinct]
    exact Option.or_none
  cases k with
  | aligned primitive => simp only [Leaf.listed?, Leaf.slot?, same]
  | unaligned primitive => simp only [Leaf.listed?, Leaf.slot?, same]
  | _ => rfl

theorem default_or_listed (k : Leaf) (skipped : Bool) (s : Settings) :
    ((({} : Config).valueAt k).or (if skipped then none else k.listed? s)).or
        (({} : Config).valueAt k) =
      (if skipped then none else k.listed? s).or (({} : Config).valueAt k) := by
  cases k with
  | aligned primitive => rfl
  | unaligned primitive => rfl
  | machine => rfl
  | _ => cases skipped <;> rfl

end Merged

/-- The setting at a place is the value of the variable for it, or what the file holds, or the
default. -/
theorem layered_valueAt {document : Option String} {environment : Environment} {c : Config}
    (loaded : layered document environment = .ok c) (k : Leaf)
    (clear : environment.Clears k.keys)
    (single : (environment.filter fun v => path? v.1 = some k.keys).length ≤ 1) :
    c.valueAt k = (environment.value? k.keys).or
      ((k.inFile? environment (fileSettings document)).or (({} : Config).valueAt k)) := by
  obtain ⟨upper, set, distinct, described⟩ := described_of_layered loaded
  obtain ⟨key, path, spelled⟩ := List.exists_cons_of_ne_nil k.keys_ne_nil
  have whole : Settings.Distinct
      (Settings.merge (Settings.merge defaults (fileSettings document)) upper) :=
    Settings.distinct_merge (Settings.distinct_merge defaults_distinct distinct)
      (settings_passable set k.keys_ne_nil clear).1
  have held := valueAt_of_ofSettings? whole described k
  rw [listed?_merge set k clear, listed?_defaults distinct] at held
  have merged : (Settings.merge (Settings.merge defaults (fileSettings document)) upper).get? k.keys =
      (along k.keys (some (.table upper))).elim
        (((fileSettings document).get? k.keys).or (({} : Config).valueAt k)) fun v =>
          some (Setting.over (((fileSettings document).get? k.keys).or (({} : Config).valueAt k)) v) := by
    rw [← k.get?_defaults, spelled, ← Settings.get?_defaults distinct]
    exact get?_merge set (spelled ▸ clear) _
  rw [merged] at held
  have plain (t : Settings) : along k.keys (some (.table upper)) ≠ some (.table t) := by
    -- the configuration would have a table where it has a value
    intro table
    obtain ⟨u, covered⟩ :=
      over_table (((fileSettings document).get? k.keys).or (({} : Config).valueAt k)) t
    rw [table, Option.elim_some, covered] at held
    exact valueAt_ne_table c k u held
  have value := settings_value set k.keys_ne_nil clear single plain
  rw [value] at held
  cases found : environment.value? k.keys with
  | none =>
    rw [found, Option.elim_none] at held
    rw [held, Leaf.inFile?, Option.none_or]
    cases (fileSettings document).get? k.keys with
    | some v => rfl
    | none => exact default_or_listed k _ _
  | some v =>
    rw [found, Option.elim_some] at held
    have kept := over_of_not_table fun t table => valueAt_ne_table c k t (by rw [held, table]; rfl)
    rw [held, kept]
    rfl

theorem layered_filter (document : Option String) (environment : Environment) :
    layered document environment =
      layered document (environment.filter fun v => v.1 ≠ fileVariable) := by
  have unspelled : path? fileVariable = none := by decide +kernel
  have same : (environment.filter fun v => v.1 ≠ fileVariable).filter
      (fun v => (path? v.1).isSome) = environment.filter fun v => (path? v.1).isSome := by
    rw [List.filter_filter]
    refine List.filter_congr fun v _ => ?_
    by_cases here : v.1 = fileVariable <;> simp [here, unspelled]
  have set : Environment.settings environment =
      Environment.settings (environment.filter fun v => v.1 ≠ fileVariable) := by
    rw [settings_filter environment, ← same, ← settings_filter]
  simp only [layered, set]

/-- A configuration that is loaded, with the document that it is loaded from, if there is one. -/
inductive Loaded (s : Surroundings) : Option String → Config → Prop
  | searched {c : Config} (loaded : load s = .ok c) :
      Loaded s (s.tree.search (fileName s.environment)) c
  | named {path text : String} {c : Config} (found : s.tree.read path = some text)
      (loaded : loadFrom s path = .ok c) : Loaded s (some text) c

theorem Loaded.layered {s : Surroundings} {document : Option String} {c : Config}
    (loaded : Loaded s document c) : Config.layered document s.environment = .ok c := by
  cases loaded with
  | searched loaded => exact loaded
  | named found loaded =>
    unfold loadFrom at loaded
    rwa [found] at loaded

/-- At each place of a configuration that is loaded, the variable for it comes before the file and
the file before the default. Plain keys have a variable named after them, and the variable that names
the file sets nothing. -/
theorem loads_by_precedence {s : Surroundings} {document : Option String} {c : Config}
    (loaded : Loaded s document c) :
    (∀ k : Leaf, s.environment.Clears k.keys →
      (s.environment.filter fun v => path? v.1 = some k.keys).length ≤ 1 →
      c.valueAt k = (s.environment.value? k.keys).or
        ((k.inFile? s.environment (fileSettings document)).or (({} : Config).valueAt k))) ∧
    (∀ k : Leaf, (∀ key ∈ k.keys, isPlain key.toList = true) →
      path? (variableName k.keys) = some k.keys) ∧
    Config.layered document s.environment =
      Config.layered document (s.environment.filter fun v => v.1 ≠ fileVariable) := by
  refine ⟨layered_valueAt loaded.layered, fun k plain => ?_, layered_filter document s.environment⟩
  refine path?_variableName k.keys_ne_nil plain ?_
  cases k <;> simp [Leaf.keys]

theorem loads_by_precedence_from_three_sources :
    let s : Surroundings := {
      tree := {
        current := ["home", "work"]
        files := [(["home", "own.toml"],
          "machine = \"avx\"\n[overrides.sum_of_poly]\naligned = \"generic\"\nunaligned = \"u_avx\"\n")] }
      environment := [("LANEKIT_CONFIG", "own.toml"), ("LANEKIT_FORCE_GENERIC", "true"),
        ("LANEKIT_OVERRIDES__SUM_OF_POLY__ALIGNED", "a_avx")] }
    let c : Config := {
      forceGeneric := true
      machine := some "avx"
      overrides := .ofList [("sum_of_poly", { aligned := some "a_avx", unaligned := some "u_avx" })] }
    let k := Leaf.unaligned "sum_of_poly"
    load s = .ok c ∧
      c.valueAt k = (s.environment.value? k.keys).or ((k.inFile? s.environment
        (fileSettings (s.tree.search "own.toml"))).or (({} : Config).valueAt k)) := by
  intro s c k
  have loaded : load s = .ok c := by decide +kernel
  exact ⟨loaded, (loads_by_precedence (.searched loaded)).1 k (by decide +kernel) (by decide +kernel)⟩

/-- A list of names that a file gives for a primitive is given up for a variable for one slot, so
nothing that the file could be said to hold for the other slot explains both of these loads. -/
theorem list_given_up_for_other_slot :
    let tree : FileTree := {
      current := []
      files := [(["lanekit.toml"], "[overrides]\nsum_of_poly = [\"generic\", \"u_avx\"]\n")] }
    let k := Leaf.aligned "sum_of_poly"
    ¬ ∃ held : Option Setting, ∀ (environment : Environment) (c : Config),
      load ⟨tree, environment⟩ = .ok c → environment.Clears k.keys →
      (∀ v ∈ environment, path? v.1 ≠ some k.keys) →
      c.valueAt k = held.or (({} : Config).valueAt k) := by
  rintro tree k ⟨held, law⟩
  have alone := law []
    { overrides := .ofList [("sum_of_poly", { aligned := some "generic", unaligned := some "u_avx" })] }
    (by decide +kernel) (by decide +kernel) (by simp)
  have given := law [("LANEKIT_OVERRIDES__SUM_OF_POLY__UNALIGNED", "generic")]
    { overrides := .ofList [("sum_of_poly", { unaligned := some "generic" })] }
    (by decide +kernel) (by decide +kernel) (by decide +kernel)
  cases alone.trans given.symm

end Config

end SimdDispatch
