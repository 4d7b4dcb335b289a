import SimdDispatch.Proofs.ByteOrder
import SimdDispatch.Proofs.Resolution
import SimdDispatch.Proofs.SortedMap

/-!
When a resolution fails, and with which error. There are six faults, looked for in a fixed order;
the two errors that would blame the dispatcher itself are never reached.
-/
namespace SimdDispatch

theorem mem_of_lt_of_pairwise {before after : List String} {key k : String}
    (ascending : (before ++ key :: after).Pairwise (· < ·)) (member : k ∈ before ++ key :: after)
    (less : k < key) : k ∈ before := by
  rcases List.mem_append.mp member with early | late
  · exact early
  · have follow := (List.pairwise_cons.mp (List.pairwise_append.mp ascending).2.1).1
    rcases List.mem_cons.mp late with rfl | later
    · exact absurd less (String.lt_irrefl k)
    · exact absurd less (String.lt_asymm (follow k later))

theorem CapabilitySet.names_sdiff (a b : CapabilitySet) :
    (a \ b).names = (Capability.all.filter fun c => c ∈ a ∧ c ∉ b).map Capability.name := by
  simp [names, toList]

theorem CapabilitySet.names_sdiff_ne_nil {a b : CapabilitySet} (known : a.unknown.isEmpty = true)
    (lacking : ¬ a ⊆ b) : (a \ b).names ≠ [] := by
  rw [subset_iff_mem known] at lacking
  obtain ⟨c, lack⟩ := Classical.not_forall.mp lacking
  obtain ⟨member, absent⟩ := Classical.not_imp.mp lack
  have listed : c.name ∈ (a \ b).names :=
    List.mem_map_of_mem (mem_toList.mpr (mem_sdiff.mpr ⟨member, absent⟩))
  exact List.ne_nil_of_mem listed

theorem Machines.validate_eq_error {tables : List Table} {e : Error}
    (refused : validate tables = .error e) :
    e = .noGenericTable ∨ ∃ name, e = .invalidTable name .duplicateMachine := by
  unfold validate at refused
  split at refused
  · cases refused
    exact .inr ⟨_, rfl⟩
  · split at refused
    · cases refused
    · cases refused
      exact .inl rfl

namespace Resolution

/-- Every preference for a primitive names an implementation that some machine has. -/
def PreferencesKnown (config : Config) (p : Primitive) : Prop :=
  ∀ contract name, config.preferred p.name contract = some name → p.Knows name

theorem preferenceFault?_eq_none_iff {p : Primitive} {preferred : Option String} :
    p.preferenceFault? preferred = none ↔ ∀ name, preferred = some name → p.Knows name := by
  cases preferred <;> simp [Primitive.preferenceFault?]

theorem preferenceFault?_eq_some_iff {p : Primitive} {preferred : Option String} {e : Error} :
    p.preferenceFault? preferred = some e ↔
      ∃ name, preferred = some name ∧ ¬ p.Knows name ∧ e = .unknownImplementation p.name name := by
  cases preferred <;> simp [Primitive.preferenceFault?, eq_comm]

theorem preferencesFault?_eq_none_iff {config : Config} {p : Primitive} :
    preferencesFault? config p = none ↔ PreferencesKnown config p := by
  rw [preferencesFault?, Option.or_eq_none_iff, preferenceFault?_eq_none_iff,
    preferenceFault?_eq_none_iff]
  constructor
  · rintro ⟨aligned, unaligned⟩ contract
    cases contract with
    | aligned => exact aligned
    | unaligned => exact unaligned
  · exact fun known => ⟨known .aligned, known .unaligned⟩

theorem preferencesFault?_eq_some_iff {config : Config} {p : Primitive} {e : Error} :
    preferencesFault? config p = some e ↔
      ∃ contract name, config.preferred p.name contract = some name ∧ ¬ p.Knows name ∧
        (contract = .unaligned →
          ∀ other, config.preferred p.name .aligned = some other → p.Knows other) ∧
        e = .unknownImplementation p.name name := by
  rw [preferencesFault?, Option.or_eq_some_iff, preferenceFault?_eq_none_iff,
    preferenceFault?_eq_some_iff, preferenceFault?_eq_some_iff]
  constructor
  · rintro (⟨name, preferred, unknown, rfl⟩ | ⟨known, name, preferred, unknown, rfl⟩)
    · exact ⟨.aligned, name, preferred, unknown, by simp, rfl⟩
    · exact ⟨.unaligned, name, preferred, unknown, fun _ => known, rfl⟩
  · rintro ⟨contract, name, preferred, unknown, known, rfl⟩
    cases contract with
    | aligned => exact .inl ⟨name, preferred, unknown, rfl⟩
    | unaligned => exact .inr ⟨known rfl, name, preferred, unknown, rfl⟩

theorem overrideFault?_eq_none_iff {t : Table} {key : String} :
    overrideFault? t key = none ↔ ∃ p ∈ t.primitives, p.name = key := by
  unfold overrideFault?
  split
  · rename_i declared
    exact iff_of_true rfl declared
  · rename_i undeclared
    exact iff_of_false (by simp) undeclared

theorem overrideFault?_eq_some_iff {t : Table} {key : String} {e : Error} :
    overrideFault? t key = some e ↔
      (∀ p ∈ t.primitives, p.name ≠ key) ∧ e = .unknownPrimitive key := by
  unfold overrideFault?
  split
  · rename_i declared
    obtain ⟨p, member, named⟩ := declared
    simp only [reduceCtorEq, false_iff, not_and]
    exact fun absent => absurd named (absent p member)
  · rename_i undeclared
    have absent : ∀ p ∈ t.primitives, p.name ≠ key := fun p member named =>
      undeclared ⟨p, member, named⟩
    rw [Option.some.injEq, eq_comm]
    exact ⟨fun same => ⟨absent, same⟩, fun fault => fault.2⟩

theorem overrides_findSome?_eq_some_iff {t : Table} {config : Config} {e : Error} :
    config.overrides.keys.findSome? (overrideFault? t) = some e ↔
      ∃ key ∈ config.overrides.keys, (∀ p ∈ t.primitives, p.name ≠ key) ∧
        (∀ k ∈ config.overrides.keys, Text.bytes k < Text.bytes key →
          ∃ p ∈ t.primitives, p.name = k) ∧
        e = .unknownPrimitive key := by
  have ascending := config.overrides.keys_pairwise
  rw [List.findSome?_eq_some_iff]
  constructor
  · rintro ⟨before, key, after, split, fault, earlier⟩
    obtain ⟨absent, rfl⟩ := overrideFault?_eq_some_iff.mp fault
    refine ⟨key, by rw [split]; simp, absent, fun k member less => ?_, rfl⟩
    rw [split] at ascending member
    exact overrideFault?_eq_none_iff.mp
      (earlier k (mem_of_lt_of_pairwise ascending member (Text.lt_iff_bytes_lt.mpr less)))
  · rintro ⟨key, member, absent, declared, rfl⟩
    obtain ⟨before, after, split⟩ := List.append_of_mem member
    refine ⟨before, key, after, split, overrideFault?_eq_some_iff.mpr ⟨absent, rfl⟩, ?_⟩
    intro k early
    rw [split] at ascending
    have less : k < key := (List.pairwise_append.mp ascending).2.2 k early key List.mem_cons_self
    exact overrideFault?_eq_none_iff.mpr
      (declared k (by rw [split]; simp [early]) (Text.lt_iff_bytes_lt.mp less))

/-- The faults of a resolution in the order in which they are looked for, each together with what
has been passed before it. -/
inductive Refused (tables : List Table) (requested : CapabilitySet) (config : Config) :
    Error → Prop
  | configuration (e : Error) (invalid : config.validate = .error e) :
      Refused tables requested config e
  | machines (e : Error) (valid : config.validate = .ok ())
      (refused : Machines.validate tables = .error e) : Refused tables requested config e
  | unknownMachine (pin : String) (valid : config.validate = .ok ())
      (accepted : Machines.validate tables = .ok ()) (pinned : config.machine = some pin)
      (absent : ∀ t ∈ tables, t.name ≠ Text.trim pin) :
      Refused tables requested config (.unknownMachine (Text.trim pin))
  | unsupported (pin : String) (t : Table) (valid : config.validate = .ok ())
      (accepted : Machines.validate tables = .ok ()) (pinned : config.machine = some pin)
      (member : t ∈ tables) (named : t.name = Text.trim pin)
      (lacking : ¬ t.mask ⊆ config.remaining requested) :
      Refused tables requested config (.unsupported t.name (t.mask \ config.remaining requested))
  | unknownPrimitive (t : Table) (key : String) (valid : config.validate = .ok ())
      (accepted : Machines.validate tables = .ok ())
      (chosen : Chosen tables (config.remaining requested) config t)
      (listed : key ∈ config.overrides.keys) (absent : ∀ p ∈ t.primitives, p.name ≠ key)
      (declared : ∀ k ∈ config.overrides.keys, Text.bytes k < Text.bytes key →
        ∃ p ∈ t.primitives, p.name = k) :
      Refused tables requested config (.unknownPrimitive key)
  | unknownImplementation (t : Table) (before after : List Primitive) (p : Primitive)
      (contract : Contract) (name : String) (valid : config.validate = .ok ())
      (accepted : Machines.validate tables = .ok ())
      (chosen : Chosen tables (config.remaining requested) config t)
      (declared : ∀ k ∈ config.overrides.keys, ∃ p ∈ t.primitives, p.name = k)
      (split : t.primitives = before ++ p :: after)
      (preferred : config.preferred p.name contract = some name) (unknown : ¬ p.Knows name)
      (earlier : ∀ q ∈ before, PreferencesKnown config q)
      (first : contract = .unaligned →
        ∀ other, config.preferred p.name .aligned = some other → p.Knows other) :
      Refused tables requested config (.unknownImplementation p.name name)

section Precedence

variable {tables : List Table} {requested : CapabilitySet} {config : Config}

theorem refused_of_chosen (valid : config.validate = .ok ())
    (accepted : Machines.validate tables = .ok ()) {t : Table}
    (chosen : Chosen tables (config.remaining requested) config t) {e : Error}
    (fault : overridesFault? t config = some e) : Refused tables requested config e := by
  rcases Option.or_eq_some_iff.mp fault with override | ⟨none, preference⟩
  · obtain ⟨key, listed, absent, declared, rfl⟩ := overrides_findSome?_eq_some_iff.mp override
    exact .unknownPrimitive t key valid accepted chosen listed absent declared
  · obtain ⟨before, p, after, split, unmet, earlier⟩ := List.findSome?_eq_some_iff.mp preference
    obtain ⟨contract, name, preferred, unknown, first, rfl⟩ :=
      preferencesFault?_eq_some_iff.mp unmet
    refine .unknownImplementation t before after p contract name valid accepted chosen ?_ split
      preferred unknown (fun q early => preferencesFault?_eq_none_iff.mp (earlier q early)) first
    exact fun k member => overrideFault?_eq_none_iff.mp (List.findSome?_eq_none_iff.mp none k member)

theorem refused_of_error {e : Error} (failed : (new tables requested config).outcome = .error e) :
    Refused tables requested config e := by
  cases valid : config.validate with
  | error f =>
    rw [new_of_config_error valid] at failed
    cases failed
    exact .configuration e valid
  | ok =>
    cases accepted : Machines.validate tables with
    | error f =>
      rw [new_of_tables_error valid accepted] at failed
      cases failed
      exact .machines e valid accepted
    | ok =>
      cases chose : chooseTable tables (config.remaining requested) config with
      | error f =>
        rw [new_of_unchosen valid accepted chose] at failed
        cases failed
        obtain ⟨pin, pinned, ⟨absent, rfl⟩ | ⟨t, member, named, lacking, rfl⟩⟩ :=
          (chooseTable_eq_error_iff accepted (Config.generic_mem_remaining valid requested)).mp chose
        · exact .unknownMachine pin valid accepted pinned absent
        · exact .unsupported pin t valid accepted pinned member named lacking
      | ok t =>
        have chosen := (chooseTable_eq_ok_iff accepted).mp chose
        obtain ⟨bindings, -, settled⟩ := new_of_chosen valid accepted chosen
        rw [settled, settle_eq_error_iff] at failed
        exact refused_of_chosen valid accepted chosen failed

theorem error_of_refused {e : Error} (refused : Refused tables requested config e) :
    (new tables requested config).outcome = .error e := by
  cases refused with
  | configuration e invalid => exact new_of_config_error invalid
  | machines e valid refused => exact new_of_tables_error valid refused
  | unknownMachine pin valid accepted pinned absent =>
    refine new_of_unchosen valid accepted ?_
    rw [chooseTable_eq_error_iff accepted (Config.generic_mem_remaining valid requested)]
    exact ⟨pin, pinned, .inl ⟨absent, rfl⟩⟩
  | unsupported pin t valid accepted pinned member named lacking =>
    refine new_of_unchosen valid accepted ?_
    rw [chooseTable_eq_error_iff accepted (Config.generic_mem_remaining valid requested)]
    exact ⟨pin, pinned, .inr ⟨t, member, named, lacking, rfl⟩⟩
  | unknownPrimitive t key valid accepted chosen listed absent declared =>
    obtain ⟨bindings, -, settled⟩ := new_of_chosen valid accepted chosen
    rw [settled, settle_eq_error_iff, overridesFault?, Option.or_eq_some_iff]
    exact .inl (overrides_findSome?_eq_some_iff.mpr ⟨key, listed, absent, declared, rfl⟩)
  | unknownImplementation t before after p contract name valid accepted chosen declared split
      preferred unknown earlier first =>
    obtain ⟨bindings, -, settled⟩ := new_of_chosen valid accepted chosen
    rw [settled, settle_eq_error_iff, overridesFault?, Option.or_eq_some_iff]
    refine .inr ⟨?_, List.findSome?_eq_some_iff.mpr ⟨before, p, after, split, ?_, ?_⟩⟩
    · exact List.findSome?_eq_none_iff.mpr fun k member =>
        overrideFault?_eq_none_iff.mpr (declared k member)
    · exact preferencesFault?_eq_some_iff.mpr ⟨contract, name, preferred, unknown, first, rfl⟩
    · exact fun q early => preferencesFault?_eq_none_iff.mpr (earlier q early)

/-- The two errors that would blame the dispatcher are no faults of a resolution: the first table
with the portable mask always runs, and the last entry of a list always fits. -/
theorem Refused.not_internal {e : Error} (refused : Refused tables requested config e) :
    (∀ available, e ≠ .noRunnableTable available) ∧
      ∀ machine primitive, e ≠ .invalidTable machine (.noEligible primitive) := by
  cases refused with
  | configuration e invalid =>
    rcases Config.validate_eq_error invalid with ⟨spelling, -, rfl⟩ | rfl | rfl <;> simp
  | machines e valid refused =>
    rcases Machines.validate_eq_error refused with rfl | ⟨name, rfl⟩ <;> simp
  | unknownMachine => simp
  | unsupported => simp
  | unknownPrimitive => simp
  | unknownImplementation => simp

/-- A machine that is not supported is a pinned one, and the capabilities it lacks have names. -/
theorem Refused.missing {machine : String} {missing : CapabilitySet}
    (refused : Refused tables requested config (.unsupported machine missing)) :
    missing.names ≠ [] ∧ ∃ t ∈ tables, t.name = machine ∧
      missing.names = (Capability.all.filter fun c =>
        c ∈ t.mask ∧ c ∉ config.remaining requested).map Capability.name := by
  cases refused with
  | configuration e invalid =>
    rcases Config.validate_eq_error invalid with ⟨spelling, -, same⟩ | same | same <;> cases same
  | machines e valid refused =>
    rcases Machines.validate_eq_error refused with same | ⟨name, same⟩ <;> cases same
  | unsupported pin t valid accepted pinned member named lacking =>
    exact ⟨CapabilitySet.names_sdiff_ne_nil t.wellFormed.known lacking, t, member, rfl,
      CapabilitySet.names_sdiff _ _⟩

end Precedence

/-- A resolution fails by the first of the six faults, with its error, and succeeds without one. -/
theorem new_eq_error_iff_refused (tables : List Table) (requested : CapabilitySet)
    (config : Config) :
    (∀ e, (new tables requested config).outcome = .error e ↔ Refused tables requested config e) ∧
      ((∃ r, (new tables requested config).outcome = .ok r) ↔
        ∀ e, ¬ Refused tables requested config e) ∧
      (∀ machine missing,
        (new tables requested config).outcome = .error (.unsupported machine missing) →
          missing.names ≠ [] ∧ ∃ t ∈ tables, t.name = machine ∧
            missing.names = (Capability.all.filter fun c =>
              c ∈ t.mask ∧ c ∉ config.remaining requested).map Capability.name) ∧
      (∀ available, (new tables requested config).outcome ≠ .error (.noRunnableTable available)) ∧
      ∀ machine primitive, (new tables requested config).outcome ≠
        .error (.invalidTable machine (.noEligible primitive)) := by
  refine ⟨fun e => ⟨refused_of_error, error_of_refused⟩, ?_, ?_, ?_, ?_⟩
  · constructor
    · rintro ⟨r, ok⟩ e refused
      rw [error_of_refused refused] at ok
      cases ok
    · intro free
      cases outcome : (new tables requested config).outcome with
      | ok r => exact ⟨r, rfl⟩
      | error e => exact absurd (refused_of_error outcome) (free e)
  · exact fun machine missing failed => (refused_of_error failed).missing
  · exact fun available failed => (refused_of_error failed).not_internal.1 available rfl
  · exact fun machine primitive failed =>
      (refused_of_error failed).not_internal.2 machine primitive rfl

/-- A pin with blanks around it whose machine lost a capability is refused for that, although one
of the overrides is for no primitive either. -/
theorem new_refuses_pinned_without_avx :
    let config : Config :=
      { disabled := [" A.V_x"], machine := " avx\t", overrides := .ofList [("nothing", {})] }
    (new Machines.builtin ⟨0xffffffff⟩ config).outcome = .error (.unsupported "avx" (.only .avx)) ∧
      Refused Machines.builtin ⟨0xffffffff⟩ config (.unsupported "avx" (.only .avx)) ∧
      (CapabilitySet.only .avx).names = ["avx"] ∧ (CapabilitySet.only .avx).names ≠ [] := by
  intro config
  have failed : (new Machines.builtin ⟨0xffffffff⟩ config).outcome =
      .error (.unsupported "avx" (.only .avx)) := by decide
  obtain ⟨fails, -, missing, -⟩ := new_eq_error_iff_refused Machines.builtin ⟨0xffffffff⟩ config
  exact ⟨failed, (fails _).mp failed, by decide, (missing _ _ failed).1⟩

end Resolution
end SimdDispatch
