import SimdDispatch.Proofs.Resolution

/-!
Capabilities taken away by a configuration, against those that a processor never had. A resolution
reads its request and what is taken away only through what is left, so the two cannot be told apart.
-/
namespace SimdDispatch

/-- The same pin and the same overrides, with nothing taken away. -/
def Config.unrestricted (c : Config) : Config := { c with forceGeneric := false, disabled := [] }

theorem Config.validate_unrestricted {c : Config} (valid : c.validate = .ok ()) :
    c.unrestricted.validate = .ok () := by
  have pins := (validate_eq_ok_iff.mp valid).2.2
  rw [validate_eq_ok_iff]
  have nothing : c.unrestricted.taken = ∅ := rfl
  refine ⟨rfl, ?_, pins⟩
  rw [nothing]
  exact CapabilitySet.not_mem_empty _

theorem Config.remaining_unrestricted (c : Config) {given : CapabilitySet}
    (portable : .generic ∈ given) : c.unrestricted.remaining given = given := by
  have kept : given ∪ .generic = given :=
    CapabilitySet.union_eq_left (CapabilitySet.only_subset portable)
  change (given ∪ .generic) \ ∅ = given
  rw [CapabilitySet.sdiff_empty, kept]

namespace Resolution

/-- Beside the pin and the overrides, all that counts is what is left of the request. -/
theorem new_outcome_congr (tables : List Table) {given given' : CapabilitySet} {c d : Config}
    (valid : c.validate = .ok ()) (valid' : d.validate = .ok ()) (pin : c.machine = d.machine)
    (overrides : c.overrides = d.overrides) (left : c.remaining given = d.remaining given') :
    (new tables given c).outcome = (new tables given' d).outcome := by
  cases accepted : Machines.validate tables with
  | error e => rw [new_of_tables_error valid accepted, new_of_tables_error valid' accepted]
  | ok =>
    have choice : chooseTable tables (d.remaining given') c =
        chooseTable tables (d.remaining given') d := by
      simp only [chooseTable, pin]
    have checks : ∀ t, checkOverrides t c = checkOverrides t d := by
      intro t
      simp only [checkOverrides, overrides]
    have binds : ∀ t p, bindPrimitive t (d.remaining given') c p =
        bindPrimitive t (d.remaining given') d p := by
      intro t p
      simp only [bindPrimitive, overrides]
    rw [new_outcome valid accepted, new_outcome valid' accepted, left, choice]
    simp only [checks, binds]

/-- Taking capabilities away is running on a processor without them: error or resolution, what
comes out is the same. So a resolution made again for what it was left with is that resolution. -/
theorem new_eq_on_lesser_processor (tables : List Table) (given : CapabilitySet) (config : Config)
    (valid : config.validate = .ok ()) :
    (∃ disabled, config.disabledSet = .ok disabled ∧
      (new tables given config).outcome =
        (new tables (if config.forceGeneric then .generic else (given ∪ .generic) \ disabled)
          { config with forceGeneric := false, disabled := [] }).outcome) ∧
      ∀ r, (new tables given config).outcome = .ok r →
        (new tables r.detected config).outcome = .ok r := by
  constructor
  · refine ⟨config.taken, Config.disabledSet_of_validate valid, ?_⟩
    have portable := Config.generic_mem_remaining valid given
    exact new_outcome_congr tables valid (Config.validate_unrestricted valid) rfl rfl
      (config.remaining_unrestricted portable).symm
  · intro r ok
    have left := (resolved_of_ok ok).detected
    have again : (new tables r.detected config).outcome = (new tables given config).outcome := by
      apply new_outcome_congr tables valid valid rfl rfl
      rw [left]
      exact Config.remaining_remaining valid given
    rw [again, ok]

/-- A processor with every bit set loses one capability under an odd spelling, and with it the table
of the preferred implementation. -/
theorem new_eq_on_processor_without_fma :
    let config : Config := {
      disabled := [" F.mA "], overrides := .ofList [("sum_of_poly", { aligned := "a_avx_fma" })] }
    let lesser : CapabilitySet := (⟨0xffffffff⟩ ∪ .generic) \ .only .fma
    config.validate = .ok () ∧
      ∃ r, (new Machines.builtin ⟨0xffffffff⟩ config).outcome = .ok r ∧ r.table.name = "avx" ∧
        (new Machines.builtin lesser { config with disabled := [] }).outcome = .ok r ∧
        (new Machines.builtin r.detected config).outcome = .ok r := by
  intro config lesser
  have valid : config.validate = .ok () := by decide
  obtain ⟨r, ok, named⟩ : ∃ r, (new Machines.builtin ⟨0xffffffff⟩ config).outcome = .ok r ∧
      (r.table.name == "avx") = true := exists_of_okAnd (by decide)
  obtain ⟨⟨disabled, read, same⟩, again⟩ :=
    new_eq_on_lesser_processor Machines.builtin ⟨0xffffffff⟩ config valid
  have taken : config.disabledSet = .ok (.only .fma) := by decide
  rw [taken] at read
  cases read
  exact ⟨valid, r, ok, by simpa using named, same.symm.trans ok, again r ok⟩

end Resolution
end SimdDispatch
