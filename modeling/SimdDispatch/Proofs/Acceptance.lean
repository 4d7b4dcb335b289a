import SimdDispatch.Proofs.Resolution

/-!
Configurations judged alike on every processor. The processor selects the table, and the table is
where names are looked up first; where all tables know the same names this makes no difference. The
built-in tables do: what the selected one was not given, the catalog still knows.
-/
namespace SimdDispatch

theorem findSome?_eq_of_forall₂ {α β γ : Type} {f : α → Option γ} {g : β → Option γ} {xs : List α}
    {ys : List β} (related : List.Forall₂ (fun x y => f x = g y) xs ys) :
    xs.findSome? f = ys.findSome? g := by
  induction related with
  | nil => rfl
  | cons head tail ih => rw [List.findSome?_cons, List.findSome?_cons, head, ih]

/-- The same primitives in the same order, with the same names known for each. -/
def Table.Alike (t u : Table) : Prop :=
  List.Forall₂ (fun p q => p.name = q.name ∧ ∀ name, p.Knows name ↔ q.Knows name)
    t.primitives u.primitives

theorem Table.Alike.declares_iff {t u : Table} (alike : t.Alike u) {key : String} :
    (∃ p ∈ t.primitives, p.name = key) ↔ ∃ q ∈ u.primitives, q.name = key := by
  constructor
  · rintro ⟨p, member, rfl⟩
    obtain ⟨q, present, named, -⟩ := forall₂_left alike member
    exact ⟨q, present, named.symm⟩
  · rintro ⟨q, member, rfl⟩
    obtain ⟨p, present, named, -⟩ := forall₂_right alike member
    exact ⟨p, present, named⟩

theorem Primitive.preferenceFault?_congr {p q : Primitive} (named : p.name = q.name)
    (known : ∀ name, p.Knows name ↔ q.Knows name) (preferred : Option String) :
    p.preferenceFault? preferred = q.preferenceFault? preferred := by
  cases preferred with
  | none => rfl
  | some name => simp only [preferenceFault?, known, named]

/-- An entry that a mask filters out of a primitive of the catalog stays known through the catalog. -/
theorem Primitive.knows_filtered {p : Primitive} (listed : p ∈ Catalog.all) (mask : CapabilitySet)
    (name : String) : (p.filtered mask).Knows name ↔ p.Knows name := by
  constructor
  · rintro (⟨i, held, named⟩ | elsewhere)
    · exact .inl ⟨i, (List.mem_filter.mp held).1, named⟩
    · exact .inr elsewhere
  · rintro (⟨i, held, named⟩ | elsewhere)
    · exact .inr ⟨p, listed, rfl, i, held, named⟩
    · exact .inr elsewhere

theorem Machines.builtin_alike {t u : Table} (member : t ∈ builtin) (member' : u ∈ builtin) :
    t.Alike u := by
  unfold Table.Alike
  rw [builtin_primitives member, builtin_primitives member', List.forall₂_map_left_iff,
    List.forall₂_map_right_iff, List.forall₂_same]
  intro p listed
  refine ⟨rfl, fun name => ?_⟩
  rw [Primitive.knows_filtered listed, Primitive.knows_filtered listed]

namespace Resolution

theorem overridesFault?_eq_of_alike {t u : Table} (alike : t.Alike u) (config : Config) :
    overridesFault? t config = overridesFault? u config := by
  have keys : overrideFault? t = overrideFault? u := by
    funext key
    simp only [overrideFault?, alike.declares_iff]
  have preferences : t.primitives.findSome? (preferencesFault? config) =
      u.primitives.findSome? (preferencesFault? config) := by
    apply findSome?_eq_of_forall₂
    refine List.Forall₂.imp ?_ alike
    rintro p q ⟨named, known⟩
    have same := Primitive.preferenceFault?_congr named known
    simp only [preferencesFault?, named, same]
  rw [overridesFault?, overridesFault?, keys, preferences]

/-- Both succeed, or both fail with one error. -/
structure SameVerdict (x y : Except Error Resolution) : Prop where
  accepted : (∃ r, x = .ok r) ↔ ∃ r, y = .ok r
  refused : ∀ e, x = .error e ↔ y = .error e

theorem SameVerdict.error (e : Error) : SameVerdict (.error e) (.error e) := ⟨.rfl, fun _ => .rfl⟩

theorem SameVerdict.settle (fault : Option Error) (r s : Resolution) :
    SameVerdict (settle fault r) (settle fault s) := by
  cases fault with
  | none => exact ⟨⟨fun _ => ⟨s, rfl⟩, fun _ => ⟨r, rfl⟩⟩, by simp⟩
  | some e => exact .error e

section Judgement

variable {tables : List Table} {first second : CapabilitySet} {config : Config}

theorem sameVerdict_of_chosen (alike : ∀ t ∈ tables, ∀ u ∈ tables, t.Alike u)
    (valid : config.validate = .ok ()) (accepted : Machines.validate tables = .ok ()) {t u : Table}
    (chosen : Chosen tables (config.remaining first) config t)
    (chosen' : Chosen tables (config.remaining second) config u) :
    SameVerdict (new tables first config).outcome (new tables second config).outcome := by
  obtain ⟨bindings, -, settled⟩ := new_of_chosen valid accepted chosen
  obtain ⟨bindings', -, settled'⟩ := new_of_chosen valid accepted chosen'
  rw [settled, settled', overridesFault?_eq_of_alike (alike t chosen.mem u chosen'.mem)]
  exact .settle _ _ _

/-- With a pin a processor has a say only by not running the pinned table. -/
theorem sameVerdict_of_pinned (alike : ∀ t ∈ tables, ∀ u ∈ tables, t.Alike u)
    (valid : config.validate = .ok ()) (accepted : Machines.validate tables = .ok ()) {pin : String}
    (pinned : config.machine = some pin)
    (runs : ∀ t ∈ tables, t.name = Text.trim pin →
      t.mask ⊆ config.remaining first ∧ t.mask ⊆ config.remaining second) :
    SameVerdict (new tables first config).outcome (new tables second config).outcome := by
  by_cases listed : ∃ t ∈ tables, t.name = Text.trim pin
  · obtain ⟨t, member, named⟩ := listed
    obtain ⟨ran, ran'⟩ := runs t member named
    exact sameVerdict_of_chosen alike valid accepted (.pinned pin pinned member named ran)
      (.pinned pin pinned member named ran')
  · have absent : ∀ t ∈ tables, t.name ≠ Text.trim pin := by simpa using listed
    have unknown : ∀ given, (new tables given config).outcome =
        .error (.unknownMachine (Text.trim pin)) := by
      intro given
      apply new_of_unchosen valid accepted
      rw [chooseTable_eq_error_iff accepted (Config.generic_mem_remaining valid given)]
      exact ⟨pin, pinned, .inl ⟨absent, rfl⟩⟩
    rw [unknown, unknown]
    exact .error _

theorem unsupported_of_lacking (valid : config.validate = .ok ())
    (accepted : Machines.validate tables = .ok ()) {pin : String}
    (pinned : config.machine = some pin) {t : Table} (member : t ∈ tables)
    (named : t.name = Text.trim pin) {given : CapabilitySet}
    (lacking : ¬ t.mask ⊆ config.remaining given) :
    ∃ missing, (new tables given config).outcome =
      .error (.unsupported (Text.trim pin) missing) := by
  refine ⟨t.mask \ config.remaining given, new_of_unchosen valid accepted ?_⟩
  rw [chooseTable_eq_error_iff accepted (Config.generic_mem_remaining valid given)]
  exact ⟨pin, pinned, .inr ⟨t, member, named, lacking, by rw [named]⟩⟩

end Judgement

/-- Over the built-in tables a configuration without a pin is accepted on every processor or refused
on every one with the same error. With a pin the same holds of any two processors, unless one of
them is reported not to support the pinned table. -/
theorem withMask_judges_alike (config : Config) (first second : CapabilitySet) :
    (config.machine = none →
      SameVerdict (withMask first config).outcome (withMask second config).outcome) ∧
    ∀ pin, config.machine = some pin →
      (¬ ∃ missing, (withMask first config).outcome =
        .error (.unsupported (Text.trim pin) missing)) →
      (¬ ∃ missing, (withMask second config).outcome =
        .error (.unsupported (Text.trim pin) missing)) →
      SameVerdict (withMask first config).outcome (withMask second config).outcome := by
  have alike : ∀ t ∈ Machines.builtin, ∀ u ∈ Machines.builtin, t.Alike u :=
    fun t member u member' => Machines.builtin_alike member member'
  rcases ready_or_refused Machines.builtin config with ⟨valid, accepted⟩ | ⟨e, refused⟩
  · constructor
    · intro unpinned
      have portable := Config.generic_mem_remaining valid
      obtain ⟨t, best⟩ := Machines.exists_best accepted (portable first)
      obtain ⟨u, best'⟩ := Machines.exists_best accepted (portable second)
      exact sameVerdict_of_chosen alike valid accepted (.best unpinned best) (.best unpinned best')
    · intro pin pinned supported supported'
      apply sameVerdict_of_pinned alike valid accepted pinned
      intro t member named
      constructor
      · by_contra lacking
        exact supported (unsupported_of_lacking valid accepted pinned member named lacking)
      · by_contra lacking
        exact supported' (unsupported_of_lacking valid accepted pinned member named lacking)
  · have same : SameVerdict (withMask first config).outcome (withMask second config).outcome := by
      unfold withMask
      rw [refused first, refused second]
      exact .error e
    exact ⟨fun _ => same, fun _ _ _ _ => same⟩

/-- On the smallest processor and on one with every bit set: preferences that only the larger tables
have, the same with one that no table has, and a pin that both run. -/
theorem withMask_judges_alike_at_extremes :
    let known : Config := { overrides := .ofList [("sum_of_poly", { aligned := "a_avx_fma" })] }
    let unknown : Config := {
      overrides := .ofList [("sum_of_poly", { aligned := "a_avx_fma", unaligned := "turbo" })] }
    let pinned : Config := { known with machine := " generic\n" }
    (known.machine = none ∧ (∃ r, (withMask .generic known).outcome = .ok r) ∧
        ∃ r, (withMask ⟨0xffffffff⟩ known).outcome = .ok r) ∧
      (unknown.machine = none ∧
        (withMask .generic unknown).outcome =
          .error (.unknownImplementation "sum_of_poly" "turbo") ∧
        (withMask ⟨0xffffffff⟩ unknown).outcome =
          .error (.unknownImplementation "sum_of_poly" "turbo")) ∧
      pinned.machine = some " generic\n" ∧ (∃ r, (withMask .generic pinned).outcome = .ok r) ∧
        SameVerdict (withMask .generic pinned).outcome (withMask ⟨0xffffffff⟩ pinned).outcome := by
  intro known unknown pinned
  obtain ⟨r, small, -⟩ : ∃ r, (withMask .generic known).outcome = .ok r ∧
      (r.table.name == "generic") = true := exists_of_okAnd (by decide)
  have refused : (withMask .generic unknown).outcome =
      .error (.unknownImplementation "sum_of_poly" "turbo") := by decide
  obtain ⟨s, pinnedSmall, -⟩ : ∃ s, (withMask .generic pinned).outcome = .ok s ∧
      (s.table.name == "generic") = true := exists_of_okAnd (by decide)
  obtain ⟨s', pinnedLarge, -⟩ : ∃ s, (withMask ⟨0xffffffff⟩ pinned).outcome = .ok s ∧
      (s.table.name == "generic") = true := exists_of_okAnd (by decide)
  have alike := (withMask_judges_alike known .generic ⟨0xffffffff⟩).1 rfl
  have alike' := (withMask_judges_alike unknown .generic ⟨0xffffffff⟩).1 rfl
  refine ⟨⟨rfl, ⟨r, small⟩, alike.accepted.mp ⟨r, small⟩⟩,
    ⟨rfl, refused, (alike'.refused _).mp refused⟩, rfl, ⟨s, pinnedSmall⟩, ?_⟩
  apply (withMask_judges_alike pinned .generic ⟨0xffffffff⟩).2 " generic\n" rfl
  · rintro ⟨missing, failed⟩
    rw [pinnedSmall] at failed
    cases failed
  · rintro ⟨missing, failed⟩
    rw [pinnedLarge] at failed
    cases failed

end Resolution
end SimdDispatch
