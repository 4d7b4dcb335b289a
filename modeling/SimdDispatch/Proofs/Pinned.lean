import SimdDispatch.Proofs.Fallback
import SimdDispatch.Proofs.Narrowing
import SimdDispatch.Proofs.Noninterference
import SimdDispatch.Proofs.TruthfulLog

/-!
Configurations that pin a machine and ask for an implementation in every slot. What its slots can
hold is what they then hold, and nothing is warned of; so the configuration that names all that a
resolution chose gives it again.
-/
namespace SimdDispatch

structure Primitive.Fits (p : Primitive) (t : Table) (entry : String × Binding) : Prop where
  named : entry.1 = p.name
  member : ∀ contract, entry.2.for contract ∈ p.implementations
  within : ∀ contract, (entry.2.for contract).alignment ≤ t.boundary contract

/-- The configuration that pins a machine and asks for all of a list of bindings. -/
def Config.asking (t : Table) (bindings : List (String × Binding)) : Config where
  machine := some t.name
  overrides := .ofList (bindings.map fun (name, b) =>
    (name, ⟨some b.aligned.name, some b.unaligned.name⟩))

/-- Where the parts of a list each give the one entry of another, together they give that list. -/
theorem flatMap_eq_map_of_forall₂ {α β γ : Type} {f : α → List γ} {g : β → γ} {xs : List α}
    {ys : List β} (related : List.Forall₂ (fun x y => f x = [g y]) xs ys) :
    xs.flatMap f = ys.map g := by
  induction related with
  | nil => rfl
  | cons first rest ih => simp [first, ih]

namespace Resolution

section Asking

variable {t : Table} {bindings : List (String × Binding)}
  (fits : List.Forall₂ (·.Fits t ·) t.primitives bindings)
include fits

theorem names_of_fits : bindings.map (·.1) = t.primitives.map (·.name) :=
  map_eq_of_forall₂ (fits.flip.imp fun _ _ fit => fit.named)

theorem asking_preferred {entry : String × Binding} (present : entry ∈ bindings)
    (contract : Contract) :
    (Config.asking t bindings).preferred entry.1 contract = some (entry.2.for contract).name := by
  have distinct : ((bindings.map fun (name, b) =>
      (name, (⟨some b.aligned.name, some b.unaligned.name⟩ : Preference))).map (·.1)).Nodup := by
    rw [List.map_map]
    change (bindings.map (·.1)).Nodup
    rw [names_of_fits fits]
    exact t.wellFormed.distinct
  have held := SortedMap.get?_ofList_of_mem distinct (List.mem_map_of_mem present)
  rw [Config.preferred, Config.asking, held]
  cases contract <;> rfl

theorem asking_keys :
    ∀ key ∈ (Config.asking t bindings).overrides.keys, ∃ p ∈ t.primitives, p.name = key := by
  intro key listed
  obtain ⟨preference, present⟩ := SortedMap.mem_of_mem_keys_ofList listed
  obtain ⟨entry, member, same⟩ := List.mem_map.mp present
  have known : entry.1 ∈ bindings.map (·.1) := List.mem_map_of_mem member
  rw [names_of_fits fits, show entry.1 = key from congrArg Prod.fst same] at known
  exact List.mem_map.mp known

theorem asking_bound : List.Forall₂ (Bound t (Config.asking t bindings)) t.primitives bindings := by
  refine (forall₂_members fits).imp fun p entry ⟨_, listed, fit⟩ => ⟨fit.named, fun contract => ?_⟩
  have preferred := asking_preferred fits listed contract
  rw [fit.named] at preferred
  exact .preferred (fit.member contract) preferred (fit.within contract)

theorem asking_known : OverridesKnown t (Config.asking t bindings) := by
  refine ⟨asking_keys fits, fun p member contract name preferred => ?_⟩
  obtain ⟨entry, listed, fit⟩ := forall₂_left fits member
  rw [← fit.named, asking_preferred fits listed contract] at preferred
  exact .inl ⟨_, fit.member contract, Option.some.inj preferred⟩

section Pinned

variable {tables : List Table} {given : CapabilitySet}
  (accepted : Machines.validate tables = .ok ()) (member : t ∈ tables) (named : t.name ≠ "")
  (trimmed : Text.trim t.name = t.name) (runs : t.mask ⊆ given ∪ .generic)
include accepted member named trimmed runs

theorem new_asking_outcome :
    (new tables given (Config.asking t bindings)).outcome =
      .ok ⟨t, given ∪ .generic, bindings⟩ := by
  have nothing : (Config.asking t bindings).taken = ∅ := rfl
  have valid : (Config.asking t bindings).validate = .ok () := by
    rw [Config.validate_eq_ok_iff]
    refine ⟨rfl, by rw [nothing]; exact CapabilitySet.not_mem_empty _, fun name pin => ?_⟩
    -- a pinned name is read without blanks around it
    cases pin
    rw [trimmed]
    exact named
  have left : (Config.asking t bindings).remaining given = given ∪ .generic :=
    CapabilitySet.sdiff_empty _
  have chosen : Chosen tables ((Config.asking t bindings).remaining given)
      (Config.asking t bindings) t := by
    rw [left]
    exact .pinned t.name rfl member trimmed.symm runs
  obtain ⟨bindings', bound', settled⟩ := new_of_chosen valid accepted chosen
  rw [settled, overridesFault?_eq_none_iff.mpr (asking_known fits),
    bindings_unique bound' (asking_bound fits), left]
  rfl

theorem new_asking_events :
    (new tables given (Config.asking t bindings)).events =
      .tableSelected t.name (given ∪ .generic) t.alignment ::
        bindings.map fun entry =>
          .primitiveBound entry.1 entry.2.aligned.name entry.2.unaligned.name := by
  have ok := new_asking_outcome fits accepted member named trimmed runs
  obtain ⟨related, events⟩ := new_events ok
  have bindsAlone : List.Forall₂ (fun p entry =>
      (bindPrimitive t (given ∪ .generic) (Config.asking t bindings) p).events =
        [.primitiveBound entry.1 entry.2.aligned.name entry.2.unaligned.name])
      t.primitives bindings := by
    refine related.mp ?_ (forall₂_members fits)
    intro p entry ok ⟨member, listed, fit⟩
    have silent : ∀ contract, slotEvents t p contract
        ((Config.asking t bindings).preferred p.name contract) (entry.2.for contract) = [] := by
      intro contract
      rw [← fit.named, asking_preferred fits listed contract, slotEvents, if_pos rfl]
    rw [bindPrimitive_events member ok, fit.named]
    exact congrArg₂ (· ++ ·) (silent .aligned) (congrArg (· ++ _) (silent .unaligned))
  have silent : (effective given (Config.asking t bindings)).events = [] := by
    have taken : (Config.asking t bindings).disabledSet = .ok ∅ := rfl
    have unforced : ¬(Config.asking t bindings).forceGeneric = true := Bool.false_ne_true
    rw [effective_events taken, if_neg unforced, if_pos (CapabilitySet.inter_empty _)]
  rw [events, silent]
  exact congrArg (_ :: ·) (flatMap_eq_map_of_forall₂ bindsAlone)

end Pinned
end Asking

/-- The configuration that asks for the machine of a resolution and for all that it has bound. -/
def frozen (r : Resolution) : Config := .asking r.table r.bindings

theorem Resolved.fits {tables : List Table} {requested : CapabilitySet} {config : Config}
    {r : Resolution} (resolved : Resolved tables requested config r) :
    List.Forall₂ (·.Fits r.table ·) r.table.primitives r.bindings :=
  resolved.bound.imp fun _ _ ⟨named, filled⟩ =>
    ⟨named, fun contract => (filled contract).mem, fun contract => (filled contract).fits⟩

/-- What a resolution chose can be asked for: then it is chosen again, and no warning is logged. The
name of its table must be one that a configuration can ask for. -/
theorem new_frozen (tables : List Table) (requested : CapabilitySet) (config : Config)
    (r : Resolution) (ok : (new tables requested config).outcome = .ok r)
    (named : r.table.name ≠ "") (trimmed : Text.trim r.table.name = r.table.name) :
    (new tables r.detected r.frozen).outcome = .ok r ∧
      (new tables r.detected r.frozen).events =
        .tableSelected r.table.name r.detected r.table.alignment ::
          (r.bindings.map fun entry =>
            .primitiveBound entry.1 entry.2.aligned.name entry.2.unaligned.name) ∧
      ∀ e ∈ (new tables r.detected r.frozen).events, e.level ≠ .warn := by
  have resolved := resolved_of_ok ok
  have portable : .generic ∈ r.detected := by
    rw [resolved.detected]
    exact Config.generic_mem_remaining resolved.valid requested
  have kept : r.detected ∪ .generic = r.detected :=
    CapabilitySet.union_eq_left (CapabilitySet.only_subset portable)
  have runs : r.table.mask ⊆ r.detected ∪ .generic := by
    rw [kept]
    exact resolved.chosen.runs
  have member := resolved.chosen.mem
  have again := new_asking_outcome resolved.fits resolved.accepted member named trimmed runs
  have events := new_asking_events resolved.fits resolved.accepted member named trimmed runs
  rw [kept] at again events
  refine ⟨again, events, ?_⟩
  change ∀ e ∈ (new tables r.detected (.asking r.table r.bindings)).events, e.level ≠ .warn
  rw [events]
  intro e logged
  rcases List.mem_cons.mp logged with rfl | logged
  · simp [Event.level]
  · obtain ⟨entry, -, rfl⟩ := List.mem_map.mp logged
    simp [Event.level]

/-- One of the choices frozen here was itself made against a preference. -/
theorem new_frozen_after_fallback :
    let config : Config := {
      disabled := [" F.mA "],
      overrides := .ofList [("deinterleave", { aligned := "a_sse" }),
        ("sum_of_poly", { aligned := "u_avx_fma", unaligned := "a_avx" })] }
    ∃ r, (new Machines.builtin ⟨0xffffffff⟩ config).outcome = .ok r ∧ r.table.name = "avx" ∧
      Text.trim r.table.name = r.table.name ∧
      (new Machines.builtin r.detected r.frozen).outcome = .ok r ∧
      ∀ e ∈ (new Machines.builtin r.detected r.frozen).events, e.level ≠ .warn := by
  intro config
  obtain ⟨r, ok, passed⟩ : ∃ r, (new Machines.builtin ⟨0xffffffff⟩ config).outcome = .ok r ∧
      (r.table.name == "avx") = true := exists_of_okAnd (by decide)
  have name : r.table.name = "avx" := by simpa using passed
  have named : r.table.name ≠ "" := by
    rw [name]
    decide
  have trimmed : Text.trim r.table.name = r.table.name := by
    rw [name]
    decide
  obtain ⟨again, -, silent⟩ :=
    new_frozen Machines.builtin ⟨0xffffffff⟩ config r ok named trimmed
  exact ⟨r, ok, name, trimmed, again, silent⟩

end Resolution
end SimdDispatch
