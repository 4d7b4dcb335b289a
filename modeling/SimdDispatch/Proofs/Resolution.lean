import SimdDispatch.Proofs.Config
import SimdDispatch.Proofs.Event
import SimdDispatch.Proofs.Machines
import SimdDispatch.Resolution

/-!
The stages of a resolution, each as the fault it can have and the value it gives without it. Once
a table is chosen its mask covers everything it holds, so only boundaries still decide.
-/
namespace SimdDispatch

def Config.preferred (c : Config) (primitive : String) (contract : Contract) : Option String :=
  ((c.overrides.get? primitive).getD {}).for contract

theorem Catalog.declares_iff {primitive name : String} :
    Catalog.declares primitive name = true ↔
      ∃ q ∈ Catalog.all, q.name = primitive ∧ ∃ i ∈ q.implementations, i.name = name := by
  have distinct : (Catalog.all.map Primitive.name).Nodup := by decide
  unfold declares
  constructor
  · intro declared
    split at declared
    · rename_i q found
      obtain ⟨member, named⟩ := (find?_name_eq_some_iff Primitive.name distinct).mp found
      exact ⟨q, member, named, by simpa [Primitive.find?] using declared⟩
    · contradiction
  · rintro ⟨q, member, named, i, listed, same⟩
    have found : find? primitive = some q :=
      (find?_name_eq_some_iff Primitive.name distinct).mpr ⟨member, named⟩
    rw [found]
    simpa [Primitive.find?] using ⟨i, listed, same⟩

namespace Primitive

/-- The implementation for a slot: the preferred one where the list has it within the boundary,
and otherwise the first of the list within the boundary. -/
inductive Fills (p : Primitive) (boundary : Nat) (preferred : Option String)
    (i : Implementation) : Prop
  | preferred (member : i ∈ p.implementations) (named : preferred = some i.name)
      (fits : i.alignment ≤ boundary) : Fills p boundary preferred i
  | first (before after : List Implementation) (split : p.implementations = before ++ i :: after)
      (fits : i.alignment ≤ boundary) (earlier : ∀ j ∈ before, boundary < j.alignment)
      (unmet : ∀ j ∈ p.implementations, preferred = some j.name → boundary < j.alignment) :
      Fills p boundary preferred i

theorem Fills.mem {p : Primitive} {boundary : Nat} {preferred : Option String} {i : Implementation}
    (filled : p.Fills boundary preferred i) : i ∈ p.implementations := by
  cases filled with
  | preferred member => exact member
  | first before after split => rw [split]; simp

theorem Fills.fits {p : Primitive} {boundary : Nat} {preferred : Option String} {i : Implementation}
    (filled : p.Fills boundary preferred i) : i.alignment ≤ boundary := by
  cases filled with
  | preferred _ _ fits => exact fits
  | first _ _ _ fits => exact fits

/-- A name that some machine has for a primitive: the list holds it, or the catalog's does. -/
def Knows (p : Primitive) (name : String) : Prop :=
  (∃ i ∈ p.implementations, i.name = name) ∨
    ∃ q ∈ Catalog.all, q.name = p.name ∧ ∃ i ∈ q.implementations, i.name = name

instance (p : Primitive) (name : String) : Decidable (p.Knows name) :=
  inferInstanceAs (Decidable (_ ∨ _))

theorem knows_iff {p : Primitive} {name : String} :
    p.Knows name ↔ (p.find? name).isSome = true ∨ Catalog.declares p.name name = true := by
  simp [Knows, find?, Catalog.declares_iff]

def preferenceFault? (p : Primitive) : Option String → Option Error
  | none => none
  | some name => if p.Knows name then none else some (.unknownImplementation p.name name)

theorem WellFormed.exists_within {p : Primitive} (wellFormed : p.WellFormed) {boundary : Nat}
    (positive : 1 ≤ boundary) : ∃ i ∈ p.implementations, i.alignment ≤ boundary := by
  obtain ⟨last, isLast, generic⟩ := wellFormed.fallback
  simp only [Implementation.isGeneric, Bool.and_eq_true, decide_eq_true_eq] at generic
  exact ⟨last, List.mem_of_getLast? isLast, Nat.le_trans generic.2 positive⟩

end Primitive

theorem Implementation.isEligible_of_covered {i : Implementation} {detected : CapabilitySet}
    (covered : i.required ⊆ detected) (boundary : Nat) :
    i.isEligible detected boundary = decide (i.alignment ≤ boundary) := by
  simp [isEligible, covered]

theorem Table.one_le_boundary (t : Table) (contract : Contract) : 1 ≤ t.boundary contract := by
  cases contract with
  | aligned => exact one_le_of_isPowerOfTwo t.wellFormed.power
  | unaligned => exact Nat.le_refl 1

theorem Table.boundary_le (t : Table) (contract : Contract) : t.boundary contract ≤ t.alignment := by
  cases contract with
  | aligned => exact Nat.le_refl _
  | unaligned => exact t.one_le_boundary .aligned

theorem Table.covered_of_runs {t : Table} {p : Primitive} {detected : CapabilitySet}
    (member : p ∈ t.primitives) (runs : t.mask ⊆ detected) :
    ∀ i ∈ p.implementations, i.required ⊆ detected := fun i listed =>
  CapabilitySet.subset_trans ((t.wellFormed.primitives p member).covered i listed) runs

namespace Resolution

theorem effective_outcome {config : Config} (valid : config.validate = .ok ())
    (requested : CapabilitySet) :
    (effective requested config).outcome = .ok (config.remaining requested) := by
  unfold effective Config.remaining
  split
  · rfl
  · rw [Config.disabledSet_of_validate valid]
    exact Traced.outcome_log_if _ _ _

theorem passOver_outcome (t : Table) (p : Primitive) (contract : Contract) (name : String) :
    (passOver t p contract name).outcome = settle (p.preferenceFault? (some name)) () := by
  unfold passOver Primitive.preferenceFault?
  by_cases here : (p.find? name).isSome = true
  · simp [Primitive.knows_iff, here]
  · by_cases elsewhere : Catalog.declares p.name name = true <;>
      simp [Primitive.knows_iff, here, elsewhere]

section Slots

variable {t : Table} {p : Primitive} {detected : CapabilitySet}

theorem isEligible_of_runs (member : p ∈ t.primitives) (runs : t.mask ⊆ detected)
    {i : Implementation} (listed : i ∈ p.implementations) (boundary : Nat) :
    i.isEligible detected boundary = decide (i.alignment ≤ boundary) :=
  Implementation.isEligible_of_covered (Table.covered_of_runs member runs i listed) boundary

theorem firstEligible_outcome (member : p ∈ t.primitives) (runs : t.mask ⊆ detected)
    (contract : Contract) :
    ∃ i before after, firstEligible t p detected contract = .ok i ∧
      p.implementations = before ++ i :: after ∧ i.alignment ≤ t.boundary contract ∧
      ∀ j ∈ before, t.boundary contract < j.alignment := by
  have eligible {i} := isEligible_of_runs (i := i) member runs
  unfold firstEligible
  cases found : p.resolve detected (t.boundary contract) with
  | none =>
    obtain ⟨i, listed, fits⟩ := (t.wellFormed.primitives p member).wellFormed.exists_within
      (t.one_le_boundary contract)
    have refused := List.find?_eq_none.mp found i listed
    rw [eligible listed, decide_eq_true_eq] at refused
    exact absurd fits refused
  | some i =>
    obtain ⟨fits, before, after, split, earlier⟩ := List.find?_eq_some_iff_append.mp found
    rw [eligible (by rw [split]; simp), decide_eq_true_eq] at fits
    refine ⟨i, before, after, rfl, split, fits, fun j early => ?_⟩
    have refused := earlier j early
    rw [eligible (by rw [split]; simp [early]), Bool.not_eq_true', decide_eq_false_iff_not] at refused
    exact Nat.lt_of_not_le refused

/-- A slot is filled unless its preference is unknown; the processor has no say in it. -/
theorem bindSlot_outcome (member : p ∈ t.primitives) (runs : t.mask ⊆ detected)
    (contract : Contract) (preferred : Option String) :
    ∃ i, p.Fills (t.boundary contract) preferred i ∧
      (bindSlot t p detected contract preferred).outcome =
        settle (p.preferenceFault? preferred) i := by
  have distinct := (t.wellFormed.primitives p member).wellFormed.distinct
  obtain ⟨i, before, after, first, split, fits, earlier⟩ := firstEligible_outcome member runs contract
  cases preferred with
  | none => exact ⟨i, .first before after split fits earlier (by simp), first⟩
  | some name =>
    simp only [bindSlot]
    cases taken : (p.find? name).filter (·.isEligible detected (t.boundary contract)) with
    | some j =>
      obtain ⟨found, eligible⟩ := Option.filter_eq_some_iff.mp taken
      obtain ⟨listed, rfl⟩ := (find?_name_eq_some_iff _ distinct).mp found
      rw [isEligible_of_runs member runs listed, decide_eq_true_eq] at eligible
      have known : p.Knows j.name := .inl ⟨j, listed, rfl⟩
      refine ⟨j, .preferred listed rfl eligible, ?_⟩
      simp [Primitive.preferenceFault?, known]
    | none =>
      refine ⟨i, .first before after split fits earlier fun j listed named => ?_, ?_⟩
      · have found : p.find? name = some j :=
          (find?_name_eq_some_iff _ distinct).mpr ⟨listed, (Option.some.inj named).symm⟩
        have refused := Option.filter_eq_none_iff.mp taken j found
        rw [isEligible_of_runs member runs listed, decide_eq_true_eq] at refused
        exact Nat.lt_of_not_le refused
      · simp only [Traced.outcome_bind, passOver_outcome, Traced.outcome_lift, first]
        exact settle_bind_ok _ rfl

end Slots

def Bound (t : Table) (config : Config) (p : Primitive) (entry : String × Binding) : Prop :=
  entry.1 = p.name ∧ ∀ contract,
    p.Fills (t.boundary contract) (config.preferred p.name contract) (entry.2.for contract)

def preferencesFault? (config : Config) (p : Primitive) : Option Error :=
  (p.preferenceFault? (config.preferred p.name .aligned)).or
    (p.preferenceFault? (config.preferred p.name .unaligned))

theorem bindPrimitive_outcome {t : Table} {p : Primitive} {detected : CapabilitySet}
    (member : p ∈ t.primitives) (runs : t.mask ⊆ detected) (config : Config) :
    ∃ entry, Bound t config p entry ∧
      (bindPrimitive t detected config p).outcome = settle (preferencesFault? config p) entry := by
  obtain ⟨a, aligned, first⟩ := bindSlot_outcome member runs .aligned
    (config.preferred p.name .aligned)
  obtain ⟨u, unaligned, second⟩ := bindSlot_outcome member runs .unaligned
    (config.preferred p.name .unaligned)
  refine ⟨(p.name, ⟨a, u⟩), ⟨rfl, fun contract => ?_⟩, ?_⟩
  · cases contract with
    | aligned => exact aligned
    | unaligned => exact unaligned
  · simp only [bindPrimitive, Traced.outcome_bind]
    change (bindSlot t p detected .aligned (config.preferred p.name .aligned)).outcome >>= _ = _
    rw [first]
    refine settle_bind _ (p.preferenceFault? (config.preferred p.name .unaligned)) a _ _ ?_
    change (bindSlot t p detected .unaligned (config.preferred p.name .unaligned)).outcome >>= _ = _
    rw [second]
    exact settle_bind_ok _ rfl

def overrideFault? (t : Table) (primitive : String) : Option Error :=
  if ∃ p ∈ t.primitives, p.name = primitive then none else some (.unknownPrimitive primitive)

theorem checkOverrides_eq_settle (t : Table) (config : Config) :
    checkOverrides t config = settle (config.overrides.keys.findSome? (overrideFault? t)) () := by
  refine forM_settle (fun primitive => ?_) config.overrides.keys
  have declared : (t.find? primitive).isSome = true ↔ ∃ p ∈ t.primitives, p.name = primitive := by
    simp [Table.find?]
  by_cases here : ∃ p ∈ t.primitives, p.name = primitive
  · rw [if_pos (declared.mpr here), overrideFault?, if_pos here, settle_none]
  · rw [if_neg fun found => here (declared.mp found), overrideFault?, if_neg here, settle_some]

/-- The first fault in what overrides say: of a key that is no primitive of the table, or else of a
preference. -/
def overridesFault? (t : Table) (config : Config) : Option Error :=
  (config.overrides.keys.findSome? (overrideFault? t)).or
    (t.primitives.findSome? (preferencesFault? config))

/-- The table of a resolution: the pinned one, which must run, or else the best that runs. -/
inductive Chosen (tables : List Table) (detected : CapabilitySet) (config : Config)
    (t : Table) : Prop
  | pinned (name : String) (pin : config.machine = some name) (member : t ∈ tables)
      (named : t.name = Text.trim name) (runs : t.mask ⊆ detected) : Chosen tables detected config t
  | best (unpinned : config.machine = none) (best : Machines.Best tables detected t) :
      Chosen tables detected config t

theorem Chosen.mem {tables : List Table} {detected : CapabilitySet} {config : Config} {t : Table}
    (chosen : Chosen tables detected config t) : t ∈ tables := by
  cases chosen with
  | pinned _ _ member => exact member
  | best _ best => exact best.mem

theorem Chosen.runs {tables : List Table} {detected : CapabilitySet} {config : Config} {t : Table}
    (chosen : Chosen tables detected config t) : t.mask ⊆ detected := by
  cases chosen with
  | pinned _ _ _ _ runs => exact runs
  | best _ best => exact best.runs

section Choice

variable {tables : List Table} {detected : CapabilitySet} {config : Config}

theorem chooseTable_of_pin {name : String} (pin : config.machine = some name) :
    chooseTable tables detected config =
      Machines.find tables (Text.trim name) >>= fun t =>
        if t.mask ⊆ detected then .ok t else .error (.unsupported t.name (t.mask \ detected)) := by
  simp only [chooseTable, pin]
  cases Machines.find tables (Text.trim name) with
  | error e => rfl
  | ok t => by_cases runs : t.mask ⊆ detected <;> simp [bind, Except.bind, Table.runsOn, runs] <;> rfl

theorem chooseTable_eq_ok_iff (accepted : Machines.validate tables = .ok ()) {t : Table} :
    chooseTable tables detected config = .ok t ↔ Chosen tables detected config t := by
  have distinct := (Machines.validate_eq_ok_iff.mp accepted).1
  constructor
  · intro ok
    cases pin : config.machine with
    | some name =>
      rw [chooseTable_of_pin pin] at ok
      obtain ⟨u, found, ok⟩ := bind_success ok
      obtain ⟨member, named⟩ := (Machines.find_eq_ok_iff distinct).mp found
      split at ok
      · rename_i runs
        cases ok
        exact .pinned name pin member named runs
      · cases ok
    | none =>
      simp only [chooseTable, pin] at ok
      split at ok
      · rename_i best
        cases ok
        exact .best pin (Machines.select_eq_some_iff.mp best)
      · cases ok
  · intro chosen
    cases chosen with
    | pinned name pin member named runs =>
      rw [chooseTable_of_pin pin, (Machines.find_eq_ok_iff distinct).mpr ⟨member, named⟩]
      exact if_pos runs
    | best unpinned best =>
      simp only [chooseTable, unpinned, Machines.select_eq_some_iff.mpr best]

/-- Only a pin can leave a resolution without a table, and in two ways. -/
theorem chooseTable_eq_error_iff (accepted : Machines.validate tables = .ok ())
    (portable : .generic ∈ detected) {e : Error} :
    chooseTable tables detected config = .error e ↔
      ∃ name, config.machine = some name ∧
        ((∀ t ∈ tables, t.name ≠ Text.trim name) ∧ e = .unknownMachine (Text.trim name) ∨
          ∃ t ∈ tables, t.name = Text.trim name ∧ ¬ t.mask ⊆ detected ∧
            e = .unsupported t.name (t.mask \ detected)) := by
  have distinct := (Machines.validate_eq_ok_iff.mp accepted).1
  cases pin : config.machine with
  | none =>
    obtain ⟨t, chosen⟩ := Machines.exists_select accepted portable
    simp [chooseTable, pin, chosen]
  | some name =>
    rw [chooseTable_of_pin pin]
    simp only [Option.some.injEq, exists_eq_left']
    constructor
    · intro failed
      cases found : Machines.find tables (Text.trim name) with
      | error f =>
        rw [found] at failed
        cases failed
        exact .inl (Machines.find_eq_error_iff.mp found)
      | ok t =>
        obtain ⟨member, named⟩ := (Machines.find_eq_ok_iff distinct).mp found
        rw [found] at failed
        change (if t.mask ⊆ detected then _ else _) = _ at failed
        split at failed
        · cases failed
        · rename_i lacking
          cases failed
          exact .inr ⟨t, member, named, lacking, rfl⟩
    · rintro (absent | ⟨t, member, named, lacking, rfl⟩)
      · rw [Machines.find_eq_error_iff.mpr absent]
        rfl
      · rw [(Machines.find_eq_ok_iff distinct).mpr ⟨member, named⟩]
        exact if_neg lacking

end Choice

section Whole

variable {tables : List Table} {requested : CapabilitySet} {config : Config}

theorem new_of_config_error {e : Error} (invalid : config.validate = .error e) :
    (new tables requested config).outcome = .error e := by
  simp only [new, Traced.outcome_bind, Traced.outcome_lift, invalid]
  rfl

theorem new_of_tables_error {e : Error} (valid : config.validate = .ok ())
    (refused : Machines.validate tables = .error e) :
    (new tables requested config).outcome = .error e := by
  simp only [new, Traced.outcome_bind, Traced.outcome_lift, valid, refused]
  rfl

/-- What is checked before the processor is looked at fails on all processors alike. -/
theorem ready_or_refused (tables : List Table) (config : Config) :
    (config.validate = .ok () ∧ Machines.validate tables = .ok ()) ∨
      ∃ e, ∀ requested, (new tables requested config).outcome = .error e := by
  cases valid : config.validate with
  | error e => exact .inr ⟨e, fun _ => new_of_config_error valid⟩
  | ok =>
    cases accepted : Machines.validate tables with
    | error e => exact .inr ⟨e, fun _ => new_of_tables_error valid accepted⟩
    | ok => exact .inl ⟨rfl, rfl⟩

theorem new_outcome (valid : config.validate = .ok ())
    (accepted : Machines.validate tables = .ok ()) :
    (new tables requested config).outcome =
      chooseTable tables (config.remaining requested) config >>= fun t =>
        checkOverrides t config >>= fun _ =>
          t.primitives.mapM
            (fun p => (bindPrimitive t (config.remaining requested) config p).outcome) >>=
          fun bindings => .ok ⟨t, config.remaining requested, bindings⟩ := by
  simp only [new, Traced.outcome_bind, Traced.outcome_lift, valid, accepted,
    effective_outcome valid, Traced.outcome_log, Traced.outcome_mapM, Traced.outcome_pure]
  rfl

theorem new_of_unchosen (valid : config.validate = .ok ())
    (accepted : Machines.validate tables = .ok ()) {e : Error}
    (unchosen : chooseTable tables (config.remaining requested) config = .error e) :
    (new tables requested config).outcome = .error e := by
  rw [new_outcome valid accepted, unchosen]
  rfl

/-- With a table chosen, a resolution fails by its overrides alone, and otherwise binds. -/
theorem new_of_chosen (valid : config.validate = .ok ())
    (accepted : Machines.validate tables = .ok ()) {t : Table}
    (chosen : Chosen tables (config.remaining requested) config t) :
    ∃ bindings, List.Forall₂ (Bound t config) t.primitives bindings ∧
      (new tables requested config).outcome =
        settle (overridesFault? t config) ⟨t, config.remaining requested, bindings⟩ := by
  obtain ⟨bindings, bound, traversed⟩ := mapM_settle t.primitives fun p member =>
    bindPrimitive_outcome member chosen.runs config
  refine ⟨bindings, bound, ?_⟩
  rw [new_outcome valid accepted, (chooseTable_eq_ok_iff accepted).mpr chosen]
  change checkOverrides t config >>= _ = _
  rw [checkOverrides_eq_settle]
  refine settle_bind _ _ () _ _ ?_
  rw [traversed]
  exact settle_bind_ok _ rfl

structure Resolved (tables : List Table) (requested : CapabilitySet) (config : Config)
    (r : Resolution) : Prop where
  valid : config.validate = .ok ()
  accepted : Machines.validate tables = .ok ()
  detected : r.detected = config.remaining requested
  chosen : Chosen tables r.detected config r.table
  bound : List.Forall₂ (Bound r.table config) r.table.primitives r.bindings

theorem Resolved.names {r : Resolution} (resolved : Resolved tables requested config r) :
    r.bindings.map (·.1) = r.table.primitives.map (·.name) :=
  map_eq_of_forall₂ (resolved.bound.flip.imp fun _ _ bound => bound.1)

theorem resolved_of_ok {r : Resolution} (ok : (new tables requested config).outcome = .ok r) :
    Resolved tables requested config r := by
  rcases ready_or_refused tables config with ⟨valid, accepted⟩ | ⟨e, refused⟩
  · cases chose : chooseTable tables (config.remaining requested) config with
    | error e => rw [new_of_unchosen valid accepted chose] at ok; cases ok
    | ok t =>
      have chosen := (chooseTable_eq_ok_iff accepted).mp chose
      obtain ⟨bindings, bound, settled⟩ := new_of_chosen valid accepted chosen
      rw [settled] at ok
      obtain ⟨-, rfl⟩ := settle_eq_ok_iff.mp ok
      exact ⟨valid, accepted, rfl, chosen, bound⟩
  · rw [refused requested] at ok
    cases ok

end Whole

end Resolution
end SimdDispatch
