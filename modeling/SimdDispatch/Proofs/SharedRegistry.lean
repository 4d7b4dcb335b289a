import Mathlib.Logic.Function.Iterate
import SimdDispatch.Callers
import SimdDispatch.Proofs.Refusal
import SimdDispatch.Proofs.RegistryRefinement

/-!
The shared registry under every interleaving of its callers. Only a step that builds or installs a
registry can set the cell, and only while it is empty, so that one caller at most has set it; what
each caller is told follows from whether it is that one.
-/
namespace SimdDispatch

/-- Building a registry never fails with the error of an attempt that comes too late. -/
theorem Registry.withConfig_ne_alreadyInitialized (cpu : CapabilitySet) (config : Config) :
    (withConfig cpu config).outcome ≠ .error .alreadyInitialized := by
  intro failed
  have same : (withConfig cpu config).outcome.map (·.resolution) =
      (Resolution.withMask (cpu ∩ cpu) config).outcome := withMask_resolution cpu cpu config
  rw [failed] at same
  cases Resolution.refused_of_error same.symm with
  | configuration e invalid =>
    rcases Config.validate_eq_error invalid with ⟨spelling, -, kind⟩ | kind | kind <;> cases kind
  | machines e valid refused =>
    rcases Machines.validate_eq_error refused with kind | ⟨name, kind⟩ <;> cases kind

namespace SharedRegistry

variable {cpu : CapabilitySet}

section Callers

/-- What a step can do to a caller and to the cell. -/
inductive Moves (cpu : CapabilitySet) : Caller → Cell → Caller → Cell → Prop
  | found (s : Surroundings) (r : Registry) :
      Moves cpu (.user s none) (some r) (.user s (some (.ok r))) (some r)
  | built (s : Surroundings) (r : Registry) (made : initial cpu s = .ok r) :
      Moves cpu (.user s none) none (.user s (some (.ok r))) (some r)
  | panicked (s : Surroundings) (e : LoadFailure) (failed : initial cpu s = .error e) :
      Moves cpu (.user s none) none (.user s (some (.error e))) none
  | passed (c : Config) :
      Moves cpu (.installer c .checking) none (.installer c .building) none
  | turnedAway (c : Config) (r : Registry) :
      Moves cpu (.installer c .checking) (some r)
        (.installer c (.finished (.error .alreadyInitialized))) (some r)
  | made (c : Config) (r : Registry) (cell : Cell)
      (made : (Registry.withConfig cpu c).outcome = .ok r) :
      Moves cpu (.installer c .building) cell (.installer c (.installing r)) cell
  | refused (c : Config) (e : Error) (cell : Cell)
      (failed : (Registry.withConfig cpu c).outcome = .error e) :
      Moves cpu (.installer c .building) cell (.installer c (.finished (.error e))) cell
  | won (c : Config) (r : Registry) :
      Moves cpu (.installer c (.installing r)) none (.installer c (.finished (.ok r))) (some r)
  | lost (c : Config) (fresh r : Registry) :
      Moves cpu (.installer c (.installing fresh)) (some r)
        (.installer c (.finished (.error .alreadyInitialized))) (some r)
  | used (s : Surroundings) (outcome : Except LoadFailure Registry) (cell : Cell) :
      Moves cpu (.user s (some outcome)) cell (.user s (some outcome)) cell
  | finished (c : Config) (outcome : Except Error Registry) (cell : Cell) :
      Moves cpu (.installer c (.finished outcome)) cell (.installer c (.finished outcome)) cell

theorem Caller.step_moves (cpu : CapabilitySet) (a : Caller) (cell : Cell) :
    Moves cpu a cell (a.step cpu cell).1 (a.step cpu cell).2 := by
  cases a with
  | user s outcome =>
    cases outcome with
    | some o => exact .used s o cell
    | none =>
      cases cell with
      | some r => exact .found s r
      | none =>
        cases made : initial cpu s with
        | ok r =>
          simp only [step, get, getOrInit, made]
          exact .built s r made
        | error e =>
          simp only [step, get, getOrInit, made]
          exact .panicked s e made
  | installer c a =>
    cases a with
    | checking =>
      cases cell with
      | none => exact .passed c
      | some r => exact .turnedAway c r
    | building =>
      cases made : (Registry.withConfig cpu c).outcome with
      | ok r =>
        simp only [step, Attempt.step, made]
        exact .made c r cell made
      | error e =>
        simp only [step, Attempt.step, made]
        exact .refused c e cell made
    | installing fresh =>
      cases cell with
      | none => exact .won c fresh
      | some r => exact .lost c fresh r
    | finished outcome => exact .finished c outcome cell

/-- What a caller was told or holds fits the cell and the configuration it brought. -/
def Caller.Sound (cpu : CapabilitySet) (cell : Cell) : Caller → Prop
  | .user _ (some (.ok r)) => cell = some r
  | .installer c (.installing r) => (Registry.withConfig cpu c).outcome = .ok r
  | .installer c (.finished (.ok r)) =>
    cell = some r ∧ (Registry.withConfig cpu c).outcome = .ok r
  | .installer _ (.finished (.error e)) => e = .alreadyInitialized → cell.isSome = true
  | _ => True

/-- Got the registry it asked for. -/
def Caller.Succeeded : Caller → Prop
  | .user _ (some (.ok _)) => True
  | .installer _ (.finished (.ok _)) => True
  | _ => False

variable {a b : Caller} {cell cell' : Cell}

theorem Caller.Sound.mono (sound : a.Sound cpu cell)
    (kept : ∀ r, cell = some r → cell' = some r) : a.Sound cpu cell' := by
  unfold Caller.Sound at sound ⊢
  split
  · exact kept _ sound
  · exact sound
  · exact ⟨kept _ sound.1, sound.2⟩
  · intro late
    obtain ⟨r, set⟩ := Option.isSome_iff_exists.mp (sound late)
    rw [kept r set]
    rfl
  · trivial

namespace Moves

theorem request (moves : Moves cpu a cell b cell') : b.request = a.request := by
  cases moves <;> rfl

theorem kept (moves : Moves cpu a cell b cell') (r : Registry) (set : cell = some r) :
    cell' = some r := by
  cases moves with
  | built | panicked | passed | won => cases set
  | found | turnedAway | made | refused | lost | used | finished => exact set

theorem sound (moves : Moves cpu a cell b cell') (before : a.Sound cpu cell) : b.Sound cpu cell' := by
  cases moves with
  | found | built => rfl
  | panicked | passed => trivial
  | turnedAway | lost => exact fun _ => rfl
  | made c r cell made => exact made
  | refused c e cell failed =>
    rintro rfl
    exact absurd failed (Registry.withConfig_ne_alreadyInitialized cpu c)
  | won c r => exact ⟨rfl, before⟩
  | used | finished => exact before

theorem succeeded (moves : Moves cpu a cell b cell') (before : a.Succeeded) : b.Succeeded := by
  cases moves with
  | used | finished => exact before
  | _ => cases before

theorem of_changed (moves : Moves cpu a cell b cell') (changed : cell' ≠ cell) :
    b.Succeeded ∧ cell = none ∧ cell'.isSome = true := by
  cases moves with
  | built | won => exact ⟨trivial, rfl, rfl⟩
  | _ => exact absurd rfl changed

theorem changed_of_installed {c : Config} {r : Registry}
    (moves : Moves cpu a cell (.installer c (.finished (.ok r))) cell') :
    a = .installer c (.finished (.ok r)) ∨ cell' ≠ cell := by
  cases moves with
  | won => exact .inr (by simp)
  | finished => exact .inl rfl

end Moves
end Callers

section Worlds

variable {ι : Type} {w : World ι}

/-- What every step keeps, where `changed` are the callers whose turns have changed the cell. -/
structure Invariant (cpu : CapabilitySet) (w : World ι) (changed : ι → Prop) : Prop where
  sound : ∀ i, (w.callers i).Sound cpu w.cell
  succeeded : ∀ i, changed i → (w.callers i).Succeeded
  installed : ∀ i c r, w.callers i = .installer c (.finished (.ok r)) → changed i
  unique : ∀ i j, changed i → changed j → i = j
  changed : (∃ i, changed i) ↔ w.cell.isSome = true

theorem Invariant.start (cpu : CapabilitySet) (requests : ι → Request) :
    Invariant cpu (World.start requests) fun _ => False where
  sound i := by
    show (Caller.start (requests i)).Sound cpu none
    cases requests i <;> trivial
  succeeded _ := False.elim
  installed i c r same := by
    change Caller.start (requests i) = _ at same
    cases asked : requests i <;> rw [asked] at same <;> cases same
  unique _ _ := False.elim
  changed := by simp [World.start]

section

variable {changed : ι → Prop} {i : ι} (holds : Invariant cpu w changed)
include holds

theorem Invariant.not_changed (failed : ¬ (w.callers i).Succeeded) : ¬ changed i :=
  fun turned => failed (holds.succeeded i turned)

theorem Invariant.late {c : Config}
    (installer : w.callers i = .installer c (.finished (.error .alreadyInitialized))) :
    ∃ j, j ≠ i ∧ changed j := by
  have sound := holds.sound i
  rw [installer] at sound
  obtain ⟨j, turned⟩ := holds.changed.mpr (sound rfl)
  refine ⟨j, ?_, turned⟩
  rintro rfl
  exact holds.not_changed (by rw [installer]; exact id) turned

end

variable [DecidableEq ι]

namespace World

theorem step_moves (cpu : CapabilitySet) (w : World ι) (i : ι) :
    Moves cpu (w.callers i) w.cell ((w.step cpu i).callers i) (w.step cpu i).cell := by
  have moves := (w.callers i).step_moves cpu w.cell
  have turn : (w.step cpu i).callers i = ((w.callers i).step cpu w.cell).1 :=
    Function.update_self i _ w.callers
  rw [turn]
  exact moves

theorem step_callers_of_ne {i j : ι} (other : j ≠ i) :
    (w.step cpu i).callers j = w.callers j := Function.update_of_ne other _ _

/-- What a move keeps for the caller that makes it, and a set cell for the others, a step keeps. -/
theorem step_keeps {P : Cell → Caller → Prop}
    (own : ∀ {a b cell cell'}, Moves cpu a cell b cell' → P cell a → P cell' b)
    (others : ∀ {a cell cell'}, (∀ r, cell = some r → cell' = some r) → P cell a → P cell' a)
    (w : World ι) (k i : ι) (before : P w.cell (w.callers i)) :
    P (w.step cpu k).cell ((w.step cpu k).callers i) := by
  have moves := w.step_moves cpu k
  by_cases turn : i = k
  · subst turn
    exact own moves before
  · rw [step_callers_of_ne turn]
    exact others moves.kept before

theorem run_append (cpu : CapabilitySet) (w : World ι) (schedule later : List ι) :
    w.run cpu (schedule ++ later) = (w.run cpu schedule).run cpu later := List.foldl_append

theorem run_concat (cpu : CapabilitySet) (w : World ι) (schedule : List ι) (i : ι) :
    w.run cpu (schedule ++ [i]) = (w.run cpu schedule).step cpu i := run_append cpu w schedule [i]

theorem run_kept (cpu : CapabilitySet) (schedule : List ι) {r : Registry} (set : w.cell = some r) :
    (w.run cpu schedule).cell = some r := by
  induction schedule generalizing w with
  | nil => exact set
  | cons i rest ih => exact ih ((w.step_moves cpu i).kept r set)

theorem run_request (cpu : CapabilitySet) (schedule : List ι) (i : ι) :
    ((w.run cpu schedule).callers i).request = (w.callers i).request := by
  induction schedule generalizing w with
  | nil => rfl
  | cons k rest ih =>
    refine ih.trans ?_
    exact step_keeps (fun moves same => moves.request.trans same) (fun _ same => same) w k i rfl

end World

/-- One of the turns of a caller in a schedule changes the cell. -/
def Changes (cpu : CapabilitySet) (w : World ι) (schedule : List ι) (i : ι) : Prop :=
  ∃ before after, schedule = before ++ i :: after ∧
    (w.run cpu (before ++ [i])).cell ≠ (w.run cpu before).cell

theorem changes_concat {schedule : List ι} {i k : ι} :
    Changes cpu w (schedule ++ [k]) i ↔
      Changes cpu w schedule i ∨
        i = k ∧ ((w.run cpu schedule).step cpu k).cell ≠ (w.run cpu schedule).cell := by
  constructor
  · rintro ⟨before, after, split, changed⟩
    rcases List.eq_nil_or_concat after with rfl | ⟨after, last, rfl⟩
    · obtain ⟨rfl, same⟩ := List.append_inj' split rfl
      obtain rfl : k = i := List.head_eq_of_cons_eq same
      exact .inr ⟨rfl, World.run_concat cpu w schedule k ▸ changed⟩
    · rw [List.concat_eq_append, ← List.cons_append, ← List.append_assoc] at split
      exact .inl ⟨before, after, (List.append_inj' split rfl).1, changed⟩
  · rintro (⟨before, after, rfl, changed⟩ | ⟨rfl, changed⟩)
    · exact ⟨before, after ++ [k], by simp, changed⟩
    · exact ⟨schedule, [], rfl, World.run_concat cpu w schedule i ▸ changed⟩

theorem Invariant.step {changed : ι → Prop} (holds : Invariant cpu w changed) (k : ι) :
    Invariant cpu (w.step cpu k) fun i => changed i ∨ i = k ∧ (w.step cpu k).cell ≠ w.cell := by
  have moves := w.step_moves cpu k
  -- The cell was empty before it changed, so that nobody had changed it.
  have first : (w.step cpu k).cell ≠ w.cell → ∀ i, ¬ changed i := by
    intro new i old
    have full := holds.changed.mp ⟨i, old⟩
    rw [(moves.of_changed new).2.1] at full
    cases full
  refine ⟨?sound, ?succeeded, ?installed, ?unique, ?changed⟩
  case sound =>
    intro i
    exact World.step_keeps Moves.sound (fun kept sound => sound.mono kept) w k i (holds.sound i)
  case succeeded =>
    rintro i (old | ⟨rfl, new⟩)
    · exact World.step_keeps Moves.succeeded (fun _ before => before) w k i (holds.succeeded i old)
    · exact (moves.of_changed new).1
  case installed =>
    intro i c r same
    by_cases turn : i = k
    · subst turn
      rw [same] at moves
      rcases moves.changed_of_installed with already | new
      · exact .inl (holds.installed i c r already)
      · exact .inr ⟨rfl, new⟩
    · rw [World.step_callers_of_ne turn] at same
      exact .inl (holds.installed i c r same)
  case unique =>
    rintro i j (old | ⟨rfl, new⟩) (old' | ⟨rfl, new'⟩)
    · exact holds.unique i j old old'
    · exact absurd old (first new' i)
    · exact absurd old' (first new j)
    · rfl
  case changed =>
    constructor
    · rintro ⟨i, old | ⟨rfl, new⟩⟩
      · obtain ⟨r, full⟩ := Option.isSome_iff_exists.mp (holds.changed.mp ⟨i, old⟩)
        rw [moves.kept r full]
        rfl
      · exact (moves.of_changed new).2.2
    · intro full
      by_cases same : (w.step cpu k).cell = w.cell
      · obtain ⟨i, old⟩ := holds.changed.mpr (same ▸ full)
        exact ⟨i, .inl old⟩
      · exact ⟨k, .inr ⟨rfl, same⟩⟩

theorem Invariant.run (cpu : CapabilitySet) (requests : ι → Request) (schedule : List ι) :
    Invariant cpu ((World.start requests).run cpu schedule)
      (Changes cpu (World.start requests) schedule) := by
  induction schedule using List.reverseRecOn with
  | nil =>
    have none : Changes cpu (World.start requests) [] = fun _ => False := by
      funext i
      simp [Changes]
    rw [none]
    exact .start cpu requests
  | append_singleton schedule k ih =>
    have turns : Changes cpu (World.start requests) (schedule ++ [k]) = _ :=
      funext fun i => propext changes_concat
    rw [turns, World.run_concat]
    exact ih.step k

section Empty

/-- An attempt that is alone with an empty cell is through after three steps. -/
theorem Attempt.iterate_step {make : Except Error Registry} {r : Registry} (made : make = .ok r)
    {a : Attempt} (pending : a.outcome? = none) (own : ∀ fresh, a = .installing fresh → fresh = r) :
    (fun s : Attempt × Cell => s.1.step make s.2)^[3] (a, none) =
      (.finished (.ok r), some r) := by
  subst made
  cases a with
  | checking => rfl
  | building => rfl
  | installing fresh =>
    obtain rfl := own fresh rfl
    rfl
  | finished outcome => cases pending

theorem World.run_replicate (cpu : CapabilitySet) {i : ι} {c : Config} {a : Attempt}
    (installer : w.callers i = .installer c a) (turns : ℕ) :
    let after := (fun s : Attempt × Cell =>
      s.1.step (Registry.withConfig cpu c).outcome s.2)^[turns] (a, w.cell)
    (w.run cpu (List.replicate turns i)).callers i = .installer c after.1 ∧
      (w.run cpu (List.replicate turns i)).cell = after.2 := by
  induction turns generalizing w a with
  | zero => exact ⟨installer, rfl⟩
  | succ turns ih =>
    have stepped : (w.step cpu i).callers i =
        .installer c (a.step (Registry.withConfig cpu c).outcome w.cell).1 := by
      rw [World.step, installer]
      exact Function.update_self i _ w.callers
    have cell : (w.step cpu i).cell = (a.step (Registry.withConfig cpu c).outcome w.cell).2 := by
      rw [World.step, installer]
      rfl
    have later := ih stepped
    rw [cell] at later
    exact later

theorem World.step_user {i : ι} {s : Surroundings} {r : Registry}
    (user : w.callers i = .user s none) (empty : w.cell = none) (made : initial cpu s = .ok r) :
    (w.step cpu i).callers i = .user s (some (.ok r)) ∧ (w.step cpu i).cell = some r := by
  have stepped : (w.callers i).step cpu w.cell = (.user s (some (.ok r)), some r) := by
    simp only [user, empty, Caller.step, get, getOrInit, made]
    rfl
  rw [World.step, stepped]
  exact ⟨Function.update_self i _ w.callers, rfl⟩

end Empty

theorem Invariant.three_turns {changed : ι → Prop} (holds : Invariant cpu w changed) {i : ι}
    (empty : w.cell = none) {c : Config} {a : Attempt} {r : Registry}
    (installer : w.callers i = .installer c a)
    (pending : a.outcome? = none) (made : (Registry.withConfig cpu c).outcome = .ok r) :
    (w.run cpu [i, i, i]).callers i = .installer c (.finished (.ok r)) ∧
      (w.run cpu [i, i, i]).cell = some r := by
  have own : ∀ fresh, a = .installing fresh → fresh = r := by
    rintro fresh rfl
    have sound := holds.sound i
    rw [installer] at sound
    exact Except.ok.inj (sound.symm.trans made)
  have turns := World.run_replicate cpu installer 3
  rw [empty, Attempt.iterate_step made pending own] at turns
  exact turns

end Worlds

/-- What holds whenever callers have taken their turns by a schedule, from an empty cell on. -/
structure SetOnce {ι : Type} [DecidableEq ι] (cpu : CapabilitySet) (requests : ι → Request)
    (schedule : List ι) (w : World ι) : Prop where
  request : ∀ i, (w.callers i).request = requests i
  kept : ∀ r, w.cell = some r → ∀ later, (w.run cpu later).cell = some r
  used : ∀ i s r, w.callers i = .user s (some (.ok r)) → w.cell = some r
  installed : ∀ i c r, w.callers i = .installer c (.finished (.ok r)) →
    w.cell = some r ∧ (Registry.withConfig cpu c).outcome = .ok r
  alone : ∀ i j c d r q, w.callers i = .installer c (.finished (.ok r)) →
    w.callers j = .installer d (.finished (.ok q)) → i = j
  late : ∀ i c, w.callers i = .installer c (.finished (.error .alreadyInitialized)) →
    ∃ j, j ≠ i ∧ Changes cpu (World.start requests) schedule j
  refused : ∀ i c e, w.callers i = .installer c (.finished (.error e)) →
    ¬ Changes cpu (World.start requests) schedule i
  panicked : ∀ i s e, w.callers i = .user s (some (.error e)) →
    ¬ Changes cpu (World.start requests) schedule i
  /-- Whoever is not done can still set an empty cell. -/
  free : w.cell = none → ∀ i,
    (∀ s r, w.callers i = .user s none → initial cpu s = .ok r →
      (w.step cpu i).callers i = .user s (some (.ok r)) ∧ (w.step cpu i).cell = some r) ∧
    ∀ c a r, w.callers i = .installer c a → a.outcome? = none →
      (Registry.withConfig cpu c).outcome = .ok r →
      (w.run cpu [i, i, i]).callers i = .installer c (.finished (.ok r)) ∧
        (w.run cpu [i, i, i]).cell = some r

/-- However the turns of the callers fall, the registry is set once: whoever was given one was given
that one, one attempt at most has set it, and to its own, and whoever was refused left the cell
alone. -/
theorem run_sets_once {ι : Type} [DecidableEq ι] (cpu : CapabilitySet) (requests : ι → Request)
    (schedule : List ι) :
    SetOnce cpu requests schedule ((World.start requests).run cpu schedule) := by
  have holds := Invariant.run cpu requests schedule
  refine ⟨fun i => ?request, fun r set later => World.run_kept cpu later set,
    fun i s r user => ?used, fun i c r installer => ?installed,
    fun i j c d r q first second => ?alone, fun i c installer => holds.late installer,
    fun i c e installer => ?refused, fun i s e user => ?panicked, fun empty i => ?free⟩
  case request =>
    rw [World.run_request]
    show (Caller.start (requests i)).request = requests i
    cases requests i <;> rfl
  case used =>
    have sound := holds.sound i
    rw [user] at sound
    exact sound
  case installed =>
    have sound := holds.sound i
    rw [installer] at sound
    exact sound
  case alone =>
    exact holds.unique i j (holds.installed i c r first) (holds.installed j d q second)
  case refused => exact holds.not_changed (by rw [installer]; exact id)
  case panicked => exact holds.not_changed (by rw [user]; exact id)
  case free =>
    exact ⟨fun s r user made => World.step_user user empty made,
      fun c a r installer pending made => holds.three_turns empty installer pending made⟩

/-- Two attempts that both pass the check and build a registry: the first to install it wins. -/
example :
    let requests (i : Fin 2) : Request := .install { forceGeneric := i = 0 }
    let w := (World.start requests).run ⟨0xffffffff⟩ [0, 1, 0, 1, 1, 0]
    w.cell.map (·.machine.name) = some "avx_fma" ∧
      match w.callers 0, w.callers 1 with
      | .installer _ (.finished (.error e)), .installer _ (.finished (.ok r)) =>
        e = .alreadyInitialized ∧ r.machine.name = "avx_fma"
      | _, _ => False := by
  cbv

end SharedRegistry
end SimdDispatch
