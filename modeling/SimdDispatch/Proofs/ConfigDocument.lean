import SimdDispatch.Proofs.Config
import SimdDispatch.Proofs.Layers
import SimdDispatch.Proofs.Toml.Document

/-!
Configurations that are written as documents and read back. The document of a configuration holds
the settings that the configuration has, in the same order; laid over the defaults they describe it
again, unless a preference is for a name that is reserved in tables of settings.
-/
namespace SimdDispatch

open Toml Toml.Statement

namespace Preference

/-- The settings of the slots that have a preference. -/
def settings (p : Preference) : Settings :=
  (p.aligned.map fun n => ("aligned", Setting.text n)).toList ++
    (p.unaligned.map fun n => ("unaligned", Setting.text n)).toList

theorem settings_keys (p : Preference) : (p.settings.map (·.1)).Sublist ["aligned", "unaligned"] := by
  obtain ⟨aligned, unaligned⟩ := p
  cases aligned <;> cases unaligned <;> simp [settings]

theorem settings_nodup (p : Preference) : (p.settings.map (·.1)).Nodup :=
  p.settings_keys.nodup (by decide)

theorem lookup_settings (p : Preference) :
    p.settings.lookup "aligned" = p.aligned.map .text ∧
      p.settings.lookup "unaligned" = p.unaligned.map .text := by
  obtain ⟨aligned, unaligned⟩ := p
  cases aligned <;> cases unaligned <;> exact ⟨rfl, rfl⟩

theorem lines_slot (key : String) (name : Option String) :
    Lines (match name with
      | some n => writeAssignment key (writeText n)
      | none => []) (assignments (name.map fun n => (key, Setting.text n)).toList) := by
  cases name with
  | none => exact lines_nil
  | some n => exact lines_writeAssignment (holds_writeText n) key

theorem lines_write (p : Preference) : Lines p.write (assignments p.settings) := by
  rw [settings, assignments_append]
  exact (lines_slot "aligned" p.aligned).append (lines_slot "unaligned" p.unaligned)

theorem ofSetting?_settings (p : Preference) : ofSetting? (.table p.settings) = some p := by
  obtain ⟨aligned, unaligned⟩ := p.lookup_settings
  rw [ofSetting?, aligned, unaligned]
  obtain ⟨a, u⟩ := p
  cases a <;> cases u <;> rfl

end Preference

namespace Config

def topSettings (c : Config) : Settings :=
  [("force_generic", .flag c.forceGeneric), ("disabled_capabilities", .list (c.disabled.map .text))]
    ++ (c.machine.map fun name => ("machine", Setting.text name)).toList

def overrideTables (m : SortedMap Preference) : List (String × Settings) :=
  m.entries.map fun (k, p) => (k, p.settings)

def overrideSettings (m : SortedMap Preference) : Settings :=
  m.entries.map fun (k, p) => (k, .table p.settings)

/-- The settings of a document in which these stand below the others. -/
def settingsWith (c : Config) (overrides : Settings) : Settings :=
  c.topSettings ++ [("overrides", .table overrides)]

/-- The settings that a configuration has. -/
def settings (c : Config) : Settings := c.settingsWith (overrideSettings c.overrides)

def overrideStatements (m : SortedMap Preference) : List Statement :=
  if m.entries.isEmpty then [.table ⟨[], "overrides"⟩]
  else tables ["overrides"] (overrideTables m)

section Lines

theorem lines_topSettings (c : Config) :
    Lines (writeAssignment "force_generic" (writeFlag c.forceGeneric) ++
      writeAssignment "disabled_capabilities" (writeTexts c.disabled) ++
      (match c.machine with
        | some name => writeAssignment "machine" (writeText name)
        | none => [])) (assignments c.topSettings) := by
  have machine : Lines (match c.machine with
        | some name => writeAssignment "machine" (writeText name)
        | none => []) (assignments (c.machine.map fun name => ("machine", .text name)).toList) := by
    cases c.machine with
    | none => exact lines_nil
    | some name => exact lines_writeAssignment (holds_writeText name) "machine"
  rw [topSettings, assignments_append]
  exact ((lines_writeAssignment (holds_writeFlag c.forceGeneric) "force_generic").append
    (lines_writeAssignment (holds_writeTexts c.disabled) "disabled_capabilities")).append machine

theorem lines_writeOverrides (m : SortedMap Preference) :
    Lines (writeOverrides m) (overrideStatements m) := by
  unfold writeOverrides overrideStatements
  split
  · exact lines_writeHeader "overrides" [] (by simp [maxDepth])
  · have each (e : String × Preference) : Lines (writeHeader ["overrides", e.1] ++ e.2.write)
        ([.table ⟨["overrides"], e.1⟩] ++ assignments e.2.settings) :=
      (lines_writeHeader "overrides" [e.1] (by simp [maxDepth])).append e.2.lines_write
    rw [tables, overrideTables, List.flatMap_map]
    exact lines_flatMap each m.entries

theorem readAll_write (c : Config) :
    readAll c.write = some (assignments c.topSettings ++ overrideStatements c.overrides) := by
  obtain ⟨found, steps, read⟩ := (c.lines_topSettings.append (lines_writeOverrides c.overrides)) []
  rw [List.append_nil] at steps
  rw [← read]
  exact readAll_steps steps (by simp [writeAssignment]; decide)

end Lines

section Tables

open Toml.Tree Progress

theorem topSettings_keys (c : Config) : (c.topSettings.map (·.1)).Sublist
    ["force_generic", "disabled_capabilities", "machine"] := by
  unfold topSettings
  cases c.machine <;> simp

theorem topSettings_nodup (c : Config) : (c.topSettings.map (·.1)).Nodup :=
  c.topSettings_keys.nodup (by decide)

theorem overrides_not_mem_topSettings (c : Config) : "overrides" ∉ c.topSettings.map (·.1) :=
  fun listed => absurd (c.topSettings_keys.subset listed) (by decide)

theorem overrideTables_nodup (m : SortedMap Preference) : ((overrideTables m).map (·.1)).Nodup := by
  rw [overrideTables, List.map_map]
  exact m.keys_pairwise.imp fun less => String.ne_of_lt less

theorem foldlM_statements (c : Config) :
    ∃ last, (assignments c.topSettings ++ overrideStatements c.overrides).foldlM step .start =
      some ⟨last, ofSettings c.topSettings ++ [("overrides",
        .table (if c.overrides.entries.isEmpty then .header else .parent)
          ((overrideTables c.overrides).map fun (k, s) => (k, .table .header (ofSettings s))))]⟩ := by
  have top : (assignments c.topSettings).foldlM step .start =
      some ⟨[], ofSettings c.topSettings⟩ :=
    foldlM_assignments leads_nil [] c.topSettings_nodup
  have fresh : "overrides" ∉ (ofSettings c.topSettings).map (·.1) := by
    rw [ofSettings, List.map_map]
    exact c.overrides_not_mem_topSettings
  rw [List.foldlM_append, top]
  change ∃ last, (overrideStatements c.overrides).foldlM step ⟨[], ofSettings c.topSettings⟩ = _
  unfold overrideStatements
  split
  · rename_i empty
    have opened := step_table leads_nil [] fresh
    refine ⟨["overrides"], ?_⟩
    simpa [overrideTables, List.isEmpty_iff.mp empty] using opened
  · rename_i occupied
    have distinct := overrideTables_nodup c.overrides
    have each : ∀ t ∈ overrideTables c.overrides, (t.2.map (·.1)).Nodup := by
      intro t member
      obtain ⟨e, -, rfl⟩ := List.mem_map.mp member
      exact e.2.settings_nodup
    obtain ⟨last, built⟩ := foldlM_tables (leads_last fresh .parent) [] [] distinct each
    have tabled : overrideTables c.overrides ≠ [] := by
      simpa [overrideTables] using occupied
    exact ⟨last, (foldlM_tables_missing fresh [] tabled).trans built⟩

/-- The document of a configuration holds the settings that the configuration has. -/
theorem read_write (c : Config) : Toml.read c.write = some c.settings := by
  obtain ⟨last, built⟩ := c.foldlM_statements
  have tabled : (overrideTables c.overrides).map (fun (k, s) => (k, Setting.table s)) =
      overrideSettings c.overrides := by
    rw [overrideTables, overrideSettings, List.map_map]
    rfl
  rw [Toml.read, readAll_write]
  change ((assignments c.topSettings ++ overrideStatements c.overrides).foldlM step .start >>=
    fun p => some (toSettings p.entries)) = _
  rw [built]
  change some (toSettings _) = _
  rw [toSettings_append, toSettings_ofSettings]
  simp only [toSettings, toSetting, toSettings_tables, tabled, settings, settingsWith]

end Tables

section Layers

theorem lookup_overrideSettings (m : SortedMap Preference) (key : String) :
    (overrideSettings m).lookup key = (m.get? key).map fun p => .table p.settings := by
  rw [overrideSettings, SortedMap.get?]
  induction m.entries with
  | nil => rfl
  | cons e es ih =>
    obtain ⟨k, p⟩ := e
    rw [List.map_cons, lookup_cons_eq, lookup_cons_eq, ih]
    split <;> rfl

theorem uncarried?_of_each {s : Settings} (each : ∀ e ∈ s, Setting.uncarried? e.2 = some e.2) :
    Settings.uncarried? s = some s := by
  induction s with
  | nil => simp only [Settings.uncarried?]
  | cons e s ih =>
    obtain ⟨key, value⟩ := e
    obtain ⟨first, others⟩ := List.forall_mem_cons.mp each
    rw [Settings.uncarried?, first, ih others]
    rfl

theorem uncarried?_table {s : Settings} (each : ∀ e ∈ s, Setting.uncarried? e.2 = some e.2) :
    Setting.uncarried? (.table s) =
      if (s.lookup sourceKey).isSome then none else some ((s.lookup carriedKey).getD (.table s)) := by
  rw [Setting.uncarried?, uncarried?_of_each each]
  simp only [Option.bind_eq_bind, Option.bind_some]
  split <;> rfl

theorem uncarried?_texts (ts : List String) :
    Setting.uncarried? (.list (ts.map .text)) = some (.list (ts.map .text)) := by
  have same : Setting.allUncarried? (ts.map .text) = some (ts.map .text) := by
    induction ts with
    | nil => simp only [List.map_nil, Setting.allUncarried?]
    | cons t ts ih =>
      have plain : Setting.uncarried? (.text t) = some (.text t) := by simp only [Setting.uncarried?]
      rw [List.map_cons, Setting.allUncarried?, plain, ih]
      rfl
  rw [Setting.uncarried?, same]
  rfl

theorem uncarried?_preference (p : Preference) :
    Setting.uncarried? (.table p.settings) = some (.table p.settings) := by
  obtain ⟨aligned, unaligned⟩ := p
  cases aligned <;> cases unaligned <;> rfl

theorem uncarried?_top (c : Config) : ∀ e ∈ c.topSettings, Setting.uncarried? e.2 = some e.2 := by
  unfold topSettings
  intro e member
  rcases List.mem_append.mp member with first | machine
  · simp only [List.mem_cons, List.not_mem_nil, or_false] at first
    rcases first with rfl | rfl
    · simp only [Setting.uncarried?]
    · exact uncarried?_texts c.disabled
  · obtain ⟨name, -, rfl⟩ := Option.map_eq_some_iff.mp (Option.mem_toList.mp machine)
    simp only [Setting.uncarried?]

/-- What is left of a configuration in its document: a preference for the name under which a table
carries its value stands for all preferences, and one for the name of a source spoils the whole. -/
def written? (c : Config) : Option Config :=
  if (c.overrides.get? sourceKey).isSome then none
  else match c.overrides.get? carriedKey with
    | none => some c
    | some p => if p = {} then some { c with overrides := ∅ } else none

theorem uncarried?_overrides (m : SortedMap Preference) :
    Setting.uncarried? (.table (overrideSettings m)) =
      if (m.get? sourceKey).isSome then none
      else match m.get? carriedKey with
        | none => some (.table (overrideSettings m))
        | some p => some (.table p.settings) := by
  have each : ∀ e ∈ overrideSettings m, Setting.uncarried? e.2 = some e.2 := by
    intro e listed
    obtain ⟨e, -, rfl⟩ := List.mem_map.mp listed
    exact uncarried?_preference e.2
  rw [uncarried?_table each, lookup_overrideSettings, lookup_overrideSettings, Option.isSome_map]
  cases m.get? carriedKey <;> rfl

theorem uncarried?_append {s t : Settings} (each : ∀ e ∈ s, Setting.uncarried? e.2 = some e.2) :
    Settings.uncarried? (s ++ t) = (Settings.uncarried? t).map (s ++ ·) := by
  induction s with
  | nil => exact (Option.map_id_fun (α := Settings)).symm ▸ rfl
  | cons e s ih =>
    obtain ⟨key, value⟩ := e
    obtain ⟨first, others⟩ := List.forall_mem_cons.mp each
    rw [List.cons_append, Settings.uncarried?, first, ih others]
    cases Settings.uncarried? t <;> rfl

theorem distinct_preference (p : Preference) : p.settings.Distinct where
  keys := p.settings_nodup
  each e listed := by
    rcases List.mem_append.mp listed with aligned | unaligned
    · obtain ⟨n, -, rfl⟩ := Option.map_eq_some_iff.mp (Option.mem_toList.mp aligned)
      exact .text n
    · obtain ⟨n, -, rfl⟩ := Option.map_eq_some_iff.mp (Option.mem_toList.mp unaligned)
      exact .text n

theorem distinct_overrideSettings (m : SortedMap Preference) :
    Settings.Distinct (overrideSettings m) where
  keys := by
    rw [overrideSettings, List.map_map]
    exact m.keys_pairwise.imp fun less => String.ne_of_lt less
  each e member := by
    obtain ⟨e, -, rfl⟩ := List.mem_map.mp member
    exact Setting.distinct_table.mpr (distinct_preference e.2)

theorem distinct_settingsWith (c : Config) {overrides : Settings} (distinct : overrides.Distinct) :
    (c.settingsWith overrides).Distinct where
  keys := by
    rw [settingsWith, List.map_append]
    refine List.nodup_append.mpr ⟨c.topSettings_nodup, List.nodup_singleton _, ?_⟩
    rintro key listed _ one rfl
    rw [List.mem_singleton.mp one] at listed
    exact c.overrides_not_mem_topSettings listed
  each e member := by
    rcases List.mem_append.mp member with top | last
    · rcases List.mem_append.mp top with first | machine
      · simp only [List.mem_cons, List.not_mem_nil, or_false] at first
        rcases first with rfl | rfl
        · exact .flag _
        · refine .list fun s listed => ?_
          obtain ⟨t, -, rfl⟩ := List.mem_map.mp listed
          exact .text t
      · obtain ⟨name, -, rfl⟩ := Option.map_eq_some_iff.mp (Option.mem_toList.mp machine)
        exact .text name
    · obtain rfl := List.mem_singleton.mp last
      exact Setting.distinct_table.mpr distinct

theorem preferences_overrideSettings (m : SortedMap Preference) :
    (overrideSettings m).mapM (fun (primitive, s) => do
      return (primitive, ← Preference.ofSetting? s)) = some m.entries := by
  rw [overrideSettings]
  induction m.entries with
  | nil => rfl
  | cons e es ih =>
    obtain ⟨k, p⟩ := e
    rw [List.map_cons, List.mapM_cons, ih]
    simp only [Preference.ofSetting?_settings]
    rfl

theorem overrides?_overrideSettings (m : SortedMap Preference) :
    Setting.overrides? (.table (overrideSettings m)) = some m := by
  rw [Setting.overrides?, preferences_overrideSettings]
  exact congrArg some (SortedMap.ofList_entries m)

theorem texts?_texts (ts : List String) : Setting.texts? (.list (ts.map .text)) = some ts := by
  rw [Setting.texts?]
  induction ts with
  | nil => rfl
  | cons t ts ih =>
    rw [List.map_cons, List.mapM_cons, ih]
    rfl

theorem ofSettings?_settingsWith (c : Config) {overrides : Settings}
    (distinct : overrides.Distinct) :
    ofSettings? (Settings.merge defaults (c.settingsWith overrides)) =
      (Setting.overrides? (.table overrides)).map fun m => { c with overrides := m } := by
  have held := lookup_merge_defaults (c.distinct_settingsWith distinct)
  have forceGeneric : (Settings.merge defaults (c.settingsWith overrides)).lookup "force_generic" =
      some (.flag c.forceGeneric) := held _
  have disabled : (Settings.merge defaults (c.settingsWith overrides)).lookup
      "disabled_capabilities" = some (.list (c.disabled.map .text)) := held _
  have machine : (Settings.merge defaults (c.settingsWith overrides)).lookup "machine" =
      c.machine.map .text := by
    rw [held, settingsWith, topSettings]
    cases c.machine <;> rfl
  have tabled : (Settings.merge defaults (c.settingsWith overrides)).lookup "overrides" =
      some (.table overrides) := by
    rw [held, settingsWith, topSettings]
    cases c.machine <;> rfl
  rw [ofSettings?, forceGeneric, disabled, machine, tabled]
  simp only [Setting.optional?, texts?_texts]
  obtain ⟨f, d, name, o⟩ := c
  cases name <;> cases Setting.overrides? (.table overrides) <;> rfl

theorem ofLayers_settings (c : Config) : ofLayers [c.settings] = c.validate.map fun _ => c := by
  have described := c.ofSettings?_settingsWith (distinct_overrideSettings c.overrides)
  rw [overrides?_overrideSettings] at described
  exact ofLayers_of_ofSettings? described

theorem overrides?_preference {p : Preference} (occupied : p ≠ {}) :
    Setting.overrides? (.table p.settings) = none := by
  obtain ⟨aligned, unaligned⟩ := p
  cases aligned with
  | some n => rfl
  | none =>
    cases unaligned with
    | some n => rfl
    | none => exact absurd rfl occupied

theorem ofLayers_preference (c : Config) (p : Preference) :
    ofLayers [c.settingsWith p.settings] =
      if p = {} then { c with overrides := ∅ }.validate.map fun _ => { c with overrides := ∅ }
      else .error .unreadable := by
  split
  · rename_i empty
    subst empty
    exact ofLayers_settings { c with overrides := ∅ }
  · rename_i occupied
    have undescribed := c.ofSettings?_settingsWith (distinct_preference p)
    rw [overrides?_preference occupied, Option.map_none] at undescribed
    change ofSettings? ([c.settingsWith p.settings].foldl Settings.merge defaults) = none at undescribed
    rw [ofLayers, undescribed]

end Layers

/-- What reading the document of a configuration gives, for any names in it. -/
theorem read_write_eq (c : Config) :
    read c.write = match c.written? with
      | none => .error .unreadable
      | some left => left.validate.map fun _ => left := by
  -- only the table of preferences has keys of its own choice
  have held : (Toml.read c.write >>= Settings.uncarried?) =
      (Setting.uncarried? (.table (overrideSettings c.overrides))).map fun v =>
        c.topSettings ++ [("overrides", v)] := by
    rw [read_write]
    refine (uncarried?_append c.uncarried?_top).trans ?_
    rw [Settings.uncarried?]
    cases Setting.uncarried? (.table (overrideSettings c.overrides)) <;>
      simp [Settings.uncarried?]
  have loaded : read c.write =
      ((Setting.uncarried? (.table (overrideSettings c.overrides))).map fun v =>
        c.topSettings ++ [("overrides", v)]).elim (.error .unreadable) fun s => ofLayers [s] := by
    rw [Config.read, settingsOf_eq, held]
    cases Setting.uncarried? (.table (overrideSettings c.overrides)) <;> rfl
  rw [loaded, uncarried?_overrides, written?]
  split
  · rfl
  · cases c.overrides.get? carriedKey with
    | none => exact c.ofLayers_settings
    | some p =>
      refine (c.ofLayers_preference p).trans ?_
      by_cases empty : p = {} <;> simp [empty]

theorem read_write_of_written? {c left : Config} (restored : c.written? = some left) :
    read c.write = left.validate.map fun _ => left := by
  rw [read_write_eq, restored]

theorem get?_eq_none_iff (m : SortedMap Preference) (key : String) :
    m.get? key = none ↔ key ∉ m.keys := Entries.lookup_eq_none

theorem written?_eq_self_iff (c : Config) :
    c.written? = some c ↔ ∀ key ∈ c.overrides.keys, key ≠ carriedKey ∧ key ≠ sourceKey := by
  constructor
  · intro kept key listed
    unfold written? at kept
    split at kept
    · cases kept
    · rename_i noSource
      have source : c.overrides.get? sourceKey = none := by simpa using noSource
      cases carried : c.overrides.get? carriedKey with
      | none =>
        rw [get?_eq_none_iff] at carried source
        exact ⟨fun same => carried (same ▸ listed), fun same => source (same ▸ listed)⟩
      | some p =>
        -- all preferences would be gone, but there is one
        rw [carried] at kept
        by_cases empty : p = {}
        · simp only [empty, if_true, Option.some.injEq] at kept
          have gone : c.overrides = ∅ := congrArg Config.overrides kept.symm
          rw [gone] at listed
          cases listed
        · simp [empty] at kept
  · intro free
    have carried : c.overrides.get? carriedKey = none :=
      (get?_eq_none_iff _ _).mpr fun listed => (free _ listed).1 rfl
    have source : c.overrides.get? sourceKey = none :=
      (get?_eq_none_iff _ _).mpr fun listed => (free _ listed).2 rfl
    simp [written?, carried, source]

/-- A configuration without preferences for reserved names is read back from its document as it is,
or refused as its validation refuses it; one with such a preference is not read back. -/
theorem document_round_trip (c : Config) :
    ((∀ key ∈ c.overrides.keys, key ≠ carriedKey ∧ key ≠ sourceKey) →
      (c.validate = .ok () → read c.write = .ok c) ∧
        ∀ e, c.validate = .error e → read c.write = .error e) ∧
    ((∃ key ∈ c.overrides.keys, key = carriedKey ∨ key = sourceKey) → read c.write ≠ .ok c) := by
  constructor
  · intro free
    have settled := read_write_of_written? (c.written?_eq_self_iff.mpr free)
    exact ⟨fun valid => by rw [settled, valid]; rfl, fun e invalid => by rw [settled, invalid]; rfl⟩
  · rintro ⟨key, listed, reserved⟩ kept
    cases left : c.written? with
    | none =>
      have failed := c.read_write_eq
      rw [kept, left] at failed
      cases failed
    | some d =>
      have settled := read_write_of_written? left
      rw [kept] at settled
      cases valid : d.validate with
      | error e =>
        rw [valid] at settled
        cases settled
      | ok =>
        rw [valid] at settled
        obtain rfl : c = d := by simpa [Except.map] using settled
        have free := c.written?_eq_self_iff.mp left key listed
        rcases reserved with same | same
        · exact free.1 same
        · exact free.2 same

theorem document_round_trip_with_odd_names :
    let c : Config := {
      disabled := ["sse2", " AVX "]
      machine := some "a \"quoted\" 'machine'\n\twith \\\\ and '''"
      overrides := .ofList [("", {}), ("a.b", { aligned := some "\"\"\"" }),
        ("sum_of_poly", { aligned := some "generic", unaligned := some "" })] }
    read c.write = .ok c ∧
      read { c with disabled := ["simd"] }.write = .error (.unknownCapability "simd") ∧
      read { c with overrides := .ofList [(carriedKey, {})] }.write ≠
        .ok { c with overrides := .ofList [(carriedKey, {})] } := by
  intro c
  exact ⟨((document_round_trip c).1 (by decide)).1 (by decide),
    ((document_round_trip { c with disabled := ["simd"] }).1 (by decide)).2 _ (by decide),
    (document_round_trip { c with overrides := .ofList [(carriedKey, {})] }).2
      ⟨carriedKey, by decide, .inl rfl⟩⟩

/-- A preference for a reserved name makes the document of an accepted configuration unreadable. -/
theorem document_unreadable_at_reserved_name :
    let c : Config := { overrides := .ofList [("___figment_value_id", { aligned := some "x" })] }
    c.validate = .ok () ∧ read c.write = .error .unreadable := by
  intro c
  exact ⟨by decide, c.read_write_eq.trans rfl⟩

end Config
end SimdDispatch
