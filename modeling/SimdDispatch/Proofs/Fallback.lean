import SimdDispatch.Proofs.Acceptance
import SimdDispatch.Proofs.Log
import SimdDispatch.Proofs.Refusal

/-!
Overrides that the selected table cannot honour. A name that this table or the catalog knows falls
back to the normal choice with a warning; what only other tables of the list declare is refused, so
an override may pass on one processor and fail on a lesser one.
-/
namespace SimdDispatch

inductive Error.NamesUnknown : Error → Prop
  | primitive (name : String) : NamesUnknown (.unknownPrimitive name)
  | implementation (primitive name : String) : NamesUnknown (.unknownImplementation primitive name)

theorem Primitive.Fills.first_of_unmet {p : Primitive} {boundary : Nat} {preferred : Option String}
    {i : Implementation} (filled : p.Fills boundary preferred i) (unmet : preferred ≠ some i.name) :
    p.Fills boundary none i := by
  cases filled with
  | preferred member named fits => exact absurd named unmet
  | first before after split fits earlier unmet =>
    exact .first before after split fits earlier (by simp)

theorem Config.exists_entry_of_preferred {c : Config} {primitive name : String} {contract : Contract}
    (preferred : c.preferred primitive contract = some name) :
    ∃ preference, (primitive, preference) ∈ c.overrides.entries ∧
      preference.for contract = some name := by
  unfold Config.preferred SortedMap.get? at preferred
  cases found : c.overrides.entries.lookup primitive with
  | none =>
    rw [found] at preferred
    cases contract <;> cases preferred
  | some preference =>
    rw [found] at preferred
    obtain ⟨before, after, split, -⟩ := List.lookup_eq_some_iff.mp found
    exact ⟨preference, by rw [split]; simp, preferred⟩

namespace Resolution

/-- All that the overrides name is known where the table is selected. -/
structure OverridesKnown (t : Table) (config : Config) : Prop where
  primitives : ∀ key ∈ config.overrides.keys, ∃ p ∈ t.primitives, p.name = key
  implementations : ∀ p ∈ t.primitives, PreferencesKnown config p

/-- All that the overrides name is declared by some table of the list. -/
structure OverridesDeclared (tables : List Table) (config : Config) : Prop where
  primitives : ∀ key ∈ config.overrides.keys, ∃ t ∈ tables, ∃ p ∈ t.primitives, p.name = key
  implementations : ∀ entry ∈ config.overrides.entries, ∀ contract name,
    entry.2.for contract = some name →
      ∃ t ∈ tables, ∃ p ∈ t.primitives, p.name = entry.1 ∧ ∃ i ∈ p.implementations, i.name = name

theorem overridesFault?_eq_none_iff {t : Table} {config : Config} :
    overridesFault? t config = none ↔ OverridesKnown t config := by
  rw [overridesFault?, Option.or_eq_none_iff, List.findSome?_eq_none_iff,
    List.findSome?_eq_none_iff]
  constructor
  · rintro ⟨keys, preferences⟩
    exact ⟨fun key listed => overrideFault?_eq_none_iff.mp (keys key listed),
      fun p member => preferencesFault?_eq_none_iff.mp (preferences p member)⟩
  · rintro ⟨keys, preferences⟩
    exact ⟨fun key listed => overrideFault?_eq_none_iff.mpr (keys key listed),
      fun p member => preferencesFault?_eq_none_iff.mpr (preferences p member)⟩

theorem namesUnknown_of_fault {t : Table} {config : Config} {e : Error}
    (fault : overridesFault? t config = some e) : e.NamesUnknown := by
  rcases Option.or_eq_some_iff.mp fault with override | ⟨-, preference⟩
  · obtain ⟨key, -, unmet⟩ := List.exists_of_findSome?_eq_some override
    obtain ⟨-, rfl⟩ := overrideFault?_eq_some_iff.mp unmet
    exact .primitive key
  · obtain ⟨p, -, unmet⟩ := List.exists_of_findSome?_eq_some preference
    obtain ⟨-, name, -, -, -, rfl⟩ := preferencesFault?_eq_some_iff.mp unmet
    exact .implementation p.name name

/-- Where all tables know the same names, what one of them declares is known to each. -/
theorem OverridesDeclared.known {tables : List Table} {config : Config} {t : Table}
    (declared : OverridesDeclared tables config) (alike : ∀ u ∈ tables, u.Alike t) :
    OverridesKnown t config := by
  constructor
  · intro key listed
    obtain ⟨u, member, declares⟩ := declared.primitives key listed
    exact (alike u member).declares_iff.mp declares
  · intro p member contract name preferred
    obtain ⟨preference, entry, preferred⟩ := Config.exists_entry_of_preferred preferred
    obtain ⟨u, present, q, held, named, i, listed, same⟩ :=
      declared.implementations _ entry contract name preferred
    obtain ⟨p', member', named', known⟩ := forall₂_left (alike u present) held
    have equal : p' = p := List.inj_on_of_nodup_map t.wellFormed.distinct member' member
      (named'.symm.trans named)
    rw [← equal]
    exact (known name).mp (.inl ⟨i, listed, same⟩)

/-- A slot with a preference holds what is preferred, or what it would hold without it; then the log
has a warning with both names. -/
inductive HonouredOrWarned (events : List Event) (p : Primitive) (boundary : Nat) (name : String)
    (i : Implementation) : Prop
  | honoured (named : i.name = name) : HonouredOrWarned events p boundary name i
  | fallsBack (first : p.Fills boundary none i) (warning : Event) (logged : warning ∈ events)
      (level : warning.level = .warn) (primitive : ("primitive", p.name) ∈ warning.fields)
      (preferred : ("implementation", name) ∈ warning.fields) :
      HonouredOrWarned events p boundary name i

theorem passedOver_level (t : Table) (p : Primitive) (contract : Contract) (name : String) :
    (passedOver t p contract name).level = .warn := by
  unfold passedOver
  split <;> rfl

theorem passedOver_fields (t : Table) (p : Primitive) (contract : Contract) (name : String) :
    ("primitive", p.name) ∈ (passedOver t p contract name).fields ∧
      ("implementation", name) ∈ (passedOver t p contract name).fields := by
  unfold passedOver
  split <;> simp [Event.fields]

section Whole

variable {tables : List Table} {requested : CapabilitySet} {config : Config} {r : Resolution}
  (ok : (new tables requested config).outcome = .ok r)
include ok

theorem slotEvents_logged {p : Primitive} (member : p ∈ r.table.primitives) :
    ∃ b, r.binding p.name = .ok b ∧ ∀ contract,
      p.Fills (r.table.boundary contract) (config.preferred p.name contract) (b.for contract) ∧
        ∀ e ∈ slotEvents r.table p contract (config.preferred p.name contract) (b.for contract),
          e ∈ (new tables requested config).events := by
  obtain ⟨b, found, -, filled, events⟩ := primitive_events ok member
  refine ⟨b, found, fun contract => ⟨filled contract, fun e written => ?_⟩⟩
  have here : e ∈ (bindPrimitive r.table r.detected config p).events := by
    rw [events]
    cases contract with
    | aligned => exact List.mem_append_left _ written
    | unaligned => exact List.mem_append_right _ (List.mem_append_left _ written)
  rw [(new_events ok).2]
  apply List.mem_append_right
  apply List.mem_cons_of_mem
  exact List.mem_flatMap.mpr ⟨p, member, here⟩

theorem honouredOrWarned {p : Primitive} (member : p ∈ r.table.primitives) :
    ∃ b, r.binding p.name = .ok b ∧ ∀ contract name,
      config.preferred p.name contract = some name →
        HonouredOrWarned (new tables requested config).events p (r.table.boundary contract) name
          (b.for contract) := by
  obtain ⟨b, found, slots⟩ := slotEvents_logged ok member
  refine ⟨b, found, fun contract name preferred => ?_⟩
  obtain ⟨filled, logged⟩ := slots contract
  by_cases named : (b.for contract).name = name
  · exact .honoured named
  · have unmet : config.preferred p.name contract ≠ some (b.for contract).name := by
      rw [preferred]
      exact fun same => named (Option.some.inj same).symm
    have warned : passedOver r.table p contract name ∈ (new tables requested config).events := by
      apply logged
      simp [slotEvents, preferred, named]
    obtain ⟨primitive, implementation⟩ := passedOver_fields r.table p contract name
    exact .fallsBack (filled.first_of_unmet unmet) _ warned (passedOver_level _ _ _ _) primitive
      implementation

end Whole

/-- Without a pin, a valid configuration is refused for a name exactly when the selected table does
not know it: a key that is no primitive of it, or a preference that neither it nor the catalog has.
Where all tables know the same names, declared by any of them is enough. Otherwise every preference
is honoured, or passed over with a warning. -/
theorem new_refuses_name_iff (tables : List Table) (requested : CapabilitySet) (config : Config)
    (valid : config.validate = .ok ()) (accepted : Machines.validate tables = .ok ())
    (unpinned : config.machine = none) :
    ∃ t, Machines.Best tables (config.remaining requested) t ∧
      ((∃ e, e.NamesUnknown ∧ (new tables requested config).outcome = .error e) ↔
        ¬ OverridesKnown t config) ∧
      ((∀ u ∈ tables, u.Alike t) → OverridesDeclared tables config → OverridesKnown t config) ∧
      (OverridesKnown t config → ∃ r, (new tables requested config).outcome = .ok r ∧ r.table = t ∧
        ∀ p ∈ t.primitives, ∃ b, r.binding p.name = .ok b ∧ ∀ contract name,
          config.preferred p.name contract = some name →
            HonouredOrWarned (new tables requested config).events p (t.boundary contract) name
              (b.for contract)) := by
  have portable := Config.generic_mem_remaining valid requested
  obtain ⟨t, best⟩ := Machines.exists_best accepted portable
  obtain ⟨bindings, -, settled⟩ := new_of_chosen valid accepted (.best unpinned best)
  refine ⟨t, best, ?_, fun alike declared => declared.known alike, ?_⟩
  · rw [← overridesFault?_eq_none_iff, settled]
    constructor
    · rintro ⟨e, -, failed⟩ none
      rw [settle_eq_error_iff, none] at failed
      cases failed
    · intro faulty
      obtain ⟨e, fault⟩ := Option.ne_none_iff_exists'.mp faulty
      exact ⟨e, namesUnknown_of_fault fault, settle_eq_error_iff.mpr fault⟩
  · intro known
    rw [overridesFault?_eq_none_iff.mpr known] at settled
    exact ⟨_, settled, rfl, fun p member => honouredOrWarned settled member⟩

/-- Two tables of which the larger declares a primitive and an implementation that the other lacks,
and that the catalog does not have either. -/
def uneven : List Table := [
  ⟨"wide", .ofList [.generic, .sse], 16, [
    ⟨"sum_of_poly", .sumOfPoly, [.portable "quick" (.only .sse) 1 .sumOfPoly,
      .portable "generic" .generic 1 .sumOfPoly]⟩,
    ⟨"split", .deinterleave, [.portable "generic" .generic 1 .deinterleave]⟩], by decide⟩,
  ⟨"plain", .generic, 1, [
    ⟨"sum_of_poly", .sumOfPoly, [.portable "generic" .generic 1 .sumOfPoly]⟩], by decide⟩]

/-- A preference that the larger table has not, but the catalog, is passed over with a warning. -/
theorem uneven_falls_back :
    let config : Config := { overrides := .ofList [("sum_of_poly", { aligned := "a_avx" })] }
    config.validate = .ok () ∧ Machines.validate uneven = .ok () ∧ config.machine = none ∧
      ∃ r b, (new uneven ⟨0xffffffff⟩ config).outcome = .ok r ∧
        r.binding "sum_of_poly" = .ok b ∧ b.aligned.name = "quick" ∧
        ∃ e ∈ (new uneven ⟨0xffffffff⟩ config).events, e.level = .warn ∧
          ("primitive", "sum_of_poly") ∈ e.fields ∧ ("implementation", "a_avx") ∈ e.fields := by
  intro config
  have valid : config.validate = .ok () := by decide
  have accepted : Machines.validate uneven = .ok () := by decide
  obtain ⟨s, ok, passed⟩ : ∃ s, (new uneven ⟨0xffffffff⟩ config).outcome = .ok s ∧
      (okAnd (fun b => b.aligned.name == "quick") (s.binding "sum_of_poly") &&
        s.table.primitives.any (·.name == "sum_of_poly")) = true := exists_of_okAnd (by decide)
  obtain ⟨t, -, refused, -, resolved⟩ :=
    new_refuses_name_iff uneven ⟨0xffffffff⟩ config valid accepted rfl
  have known : OverridesKnown t config := by
    by_contra unknown
    obtain ⟨e, -, failed⟩ := refused.mpr unknown
    rw [ok] at failed
    cases failed
  obtain ⟨r, ok', rfl, slots⟩ := resolved known
  rw [ok] at ok'
  cases ok'
  rw [Bool.and_eq_true, List.any_eq_true] at passed
  obtain ⟨quick, p, member, named⟩ := passed
  rw [beq_iff_eq] at named
  obtain ⟨b, found, warned⟩ := slots p member
  have preferred : config.preferred p.name .aligned = some "a_avx" := by rw [named]; decide
  rw [named] at found
  rw [found] at quick
  have bound : b.aligned.name = "quick" := by simpa [okAnd] using quick
  refine ⟨valid, accepted, rfl, s, b, ok, found, bound, ?_⟩
  cases warned .aligned "a_avx" preferred with
  | honoured same => exact absurd (bound.symm.trans same) (by decide)
  | fallsBack first warning logged level primitive implementation =>
    exact ⟨warning, logged, level, named ▸ primitive, implementation⟩

/-- Names that a table of the list declares are refused where another table is selected: the name of
an implementation, and that of a primitive. -/
theorem declared_names_refused :
    let preferring : Config := { overrides := .ofList [("sum_of_poly", { aligned := "quick" })] }
    let naming : Config := { overrides := .ofList [("split", {})] }
    Machines.validate uneven = .ok () ∧
      (preferring.validate = .ok () ∧ preferring.machine = none ∧
        OverridesDeclared uneven preferring ∧
        (∃ r, (new uneven ⟨3⟩ preferring).outcome = .ok r) ∧
        (new uneven .generic preferring).outcome =
          .error (.unknownImplementation "sum_of_poly" "quick")) ∧
      naming.validate = .ok () ∧ naming.machine = none ∧ OverridesDeclared uneven naming ∧
        (∃ r, (new uneven ⟨3⟩ naming).outcome = .ok r) ∧
        (new uneven .generic naming).outcome = .error (.unknownPrimitive "split") := by
  intro preferring naming
  have accepting : ∀ config, okAnd (fun _ => true) (new uneven ⟨3⟩ config).outcome = true →
      ∃ r, (new uneven ⟨3⟩ config).outcome = .ok r := by
    intro config passed
    obtain ⟨r, ok, -⟩ := exists_of_okAnd passed
    exact ⟨r, ok⟩
  have preferred : OverridesDeclared uneven preferring := by
    refine ⟨by decide, ?_⟩
    intro entry listed contract name asked
    obtain rfl : entry = ("sum_of_poly", { aligned := "quick" }) := List.mem_singleton.mp listed
    cases contract with
    | aligned =>
      cases asked
      decide
    | unaligned => cases asked
  have named : OverridesDeclared uneven naming := by
    refine ⟨by decide, ?_⟩
    intro entry listed contract name asked
    obtain rfl : entry = ("split", {}) := List.mem_singleton.mp listed
    cases contract <;> cases asked
  exact ⟨by decide, ⟨by decide, rfl, preferred, accepting preferring (by decide), by decide⟩,
    by decide, rfl, named, accepting naming (by decide), by decide⟩

end Resolution
end SimdDispatch
