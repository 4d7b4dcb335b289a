import Mathlib.Data.List.Forall2
import SimdDispatch.Event

/-!
Outcomes of computations that write a log, apart from the log. The outcome of a sequence is the
sequence of the outcomes, and one that can only fail by known faults fails by the first of them.
-/
namespace SimdDispatch

/-- The outcome of a step with at most one fault. -/
def settle {ε α : Type} (fault : Option ε) (value : α) : Except ε α :=
  match fault with
  | some e => .error e
  | none => .ok value

@[simp] theorem settle_none {ε α : Type} (value : α) :
    settle (none : Option ε) value = .ok value := rfl

@[simp] theorem settle_some {ε α : Type} (e : ε) (value : α) : settle (some e) value = .error e := rfl

theorem settle_eq_error_iff {ε α : Type} {fault : Option ε} {value : α} {e : ε} :
    settle fault value = .error e ↔ fault = some e := by
  cases fault <;> simp

theorem settle_eq_ok_iff {ε α : Type} {fault : Option ε} {value result : α} :
    settle fault value = .ok result ↔ fault = none ∧ value = result := by
  cases fault <;> simp

theorem settle_bind {ε α β : Type} (first second : Option ε) (a : α) (b : β)
    (next : α → Except ε β) (step : next a = settle second b) :
    settle first a >>= next = settle (first.or second) b := by
  cases first with
  | none => exact step
  | some e => rfl

theorem settle_bind_ok {ε α β : Type} (fault : Option ε) {a : α} {b : β} {next : α → Except ε β}
    (step : next a = .ok b) : settle fault a >>= next = settle fault b := by
  rw [settle_bind fault none a b next step, Option.or_none]

theorem bind_success {ε α β : Type} {first : Except ε α} {next : α → Except ε β} {result : β}
    (ok : (first >>= next) = .ok result) : ∃ a, first = .ok a ∧ next a = .ok result := by
  cases first with
  | error e => cases ok
  | ok a => exact ⟨a, rfl, ok⟩

theorem bind_of_success {ε α β : Type} {first : Except ε α} {a : α} (ok : first = .ok a)
    (next : α → Except ε β) : (first >>= next) = next a := by
  rw [ok]
  rfl

def okAnd {ε α : Type} (test : α → Bool) : Except ε α → Bool
  | .ok a => test a
  | .error _ => false

theorem exists_of_okAnd {ε α : Type} {test : α → Bool} {x : Except ε α}
    (passed : okAnd test x = true) : ∃ a, x = .ok a ∧ test a = true := by
  cases x with
  | error e => cases passed
  | ok a => exact ⟨a, rfl, passed⟩

theorem forM_settle {ε α : Type} {step : α → Except ε Unit} {fault? : α → Option ε}
    (each : ∀ x, step x = settle (fault? x) ()) (items : List α) :
    forM items step = settle (items.findSome? fault?) () := by
  induction items with
  | nil => rfl
  | cons x rest ih =>
    rw [List.forM_cons, each, List.findSome?_cons]
    cases fault? x with
    | none => exact ih
    | some e => rfl

/-- A traversal fails by the first fault, and otherwise gives a related value for every item. -/
theorem mapM_settle {ε α β : Type} {step : α → Except ε β} {fault? : α → Option ε}
    {relation : α → β → Prop} (items : List α)
    (each : ∀ x ∈ items, ∃ y, relation x y ∧ step x = settle (fault? x) y) :
    ∃ values, List.Forall₂ relation items values ∧
      items.mapM step = settle (items.findSome? fault?) values := by
  induction items with
  | nil => exact ⟨[], .nil, rfl⟩
  | cons x rest ih =>
    obtain ⟨y, related, stepped⟩ := each x List.mem_cons_self
    obtain ⟨values, others, traversed⟩ :=
      ih fun z member => each z (List.mem_cons_of_mem x member)
    refine ⟨y :: values, .cons related others, ?_⟩
    rw [List.mapM_cons, stepped, traversed, List.findSome?_cons]
    cases fault? x with
    | some e => rfl
    | none =>
      cases rest.findSome? fault? with
      | some e => rfl
      | none => rfl

theorem mapM_eq_ok_iff {ε α β : Type} {step : α → Except ε β} {items : List α} {values : List β} :
    items.mapM step = .ok values ↔ List.Forall₂ (fun x y => step x = .ok y) items values := by
  induction items generalizing values with
  | nil =>
    rw [List.mapM_nil, List.forall₂_nil_left_iff]
    exact ⟨fun ok => (Except.ok.inj ok).symm, fun empty => congrArg Except.ok empty.symm⟩
  | cons x rest ih =>
    rw [List.mapM_cons, List.forall₂_cons_left_iff]
    constructor
    · intro ok
      obtain ⟨y, first, ok⟩ := bind_success ok
      obtain ⟨ys, others, last⟩ := bind_success ok
      cases last
      exact ⟨y, ys, first, ih.mp others, rfl⟩
    · rintro ⟨y, ys, first, others, rfl⟩
      rw [first, ih.mpr others]
      rfl

theorem forall₂_left {α β : Type} {relation : α → β → Prop} {xs : List α} {ys : List β}
    (related : List.Forall₂ relation xs ys) {x : α} (member : x ∈ xs) : ∃ y ∈ ys, relation x y := by
  induction related with
  | nil => cases member
  | cons head tail ih =>
    rcases List.mem_cons.mp member with rfl | later
    · exact ⟨_, List.mem_cons_self, head⟩
    · obtain ⟨y, present, holds⟩ := ih later
      exact ⟨y, List.mem_cons_of_mem _ present, holds⟩

theorem forall₂_right {α β : Type} {relation : α → β → Prop} {xs : List α} {ys : List β}
    (related : List.Forall₂ relation xs ys) {y : β} (member : y ∈ ys) : ∃ x ∈ xs, relation x y :=
  forall₂_left related.flip member

theorem map_eq_of_forall₂ {α β γ : Type} {f : α → γ} {g : β → γ} {xs : List α} {ys : List β}
    (same : List.Forall₂ (fun x y => f x = g y) xs ys) : xs.map f = ys.map g := by
  rw [← List.forall₂_eq_eq_eq, List.forall₂_map_left_iff, List.forall₂_map_right_iff]
  exact same

/-- What two lists relate are members of them. -/
theorem forall₂_members {α β : Type} {relation : α → β → Prop} {xs : List α} {ys : List β}
    (related : List.Forall₂ relation xs ys) :
    List.Forall₂ (fun x y => x ∈ xs ∧ y ∈ ys ∧ relation x y) xs ys := by
  have left := (List.forall₂_and_left xs ys (p := (· ∈ xs))).mpr ⟨fun _ member => member, related⟩
  have right := (List.forall₂_and_left ys xs (p := (· ∈ ys))).mpr ⟨fun _ member => member, left.flip⟩
  exact right.flip.imp fun x y ⟨listed, member, holds⟩ => ⟨member, listed, holds⟩

theorem exists_forall₂_iff {α β : Type} {relation : α → β → Prop} {xs : List α} :
    (∃ ys, List.Forall₂ relation xs ys) ↔ ∀ x ∈ xs, ∃ y, relation x y := by
  constructor
  · rintro ⟨ys, related⟩ x member
    obtain ⟨y, -, held⟩ := forall₂_left related member
    exact ⟨y, held⟩
  · intro each
    induction xs with
    | nil => exact ⟨[], .nil⟩
    | cons x rest ih =>
      obtain ⟨y, first⟩ := each x List.mem_cons_self
      obtain ⟨ys, others⟩ := ih fun z member => each z (List.mem_cons_of_mem x member)
      exact ⟨y :: ys, .cons first others⟩

/-- What is computed from two related lists side by side, over the first of them. -/
theorem forall₂_zip_map {α β γ : Type} {relation : α → β → Prop} {xs : List α} {ys : List β}
    (related : List.Forall₂ relation xs ys) (f : α × β → γ) :
    List.Forall₂ (fun x z => ∃ y, relation x y ∧ z = f (x, y)) xs ((xs.zip ys).map f) := by
  induction related with
  | nil => exact .nil
  | cons head tail ih => exact .cons ⟨_, head, rfl⟩ ih

theorem forall₂_comp {α β γ : Type} {first : α → β → Prop} {second : β → γ → Prop} {xs : List α}
    {ys : List β} {zs : List γ} (left : List.Forall₂ first xs ys) (right : List.Forall₂ second ys zs) :
    List.Forall₂ (fun x z => ∃ y, first x y ∧ second y z) xs zs := by
  induction left generalizing zs with
  | nil =>
    cases right
    exact .nil
  | cons head tail ih =>
    cases right with
    | cons head' tail' => exact .cons ⟨_, head, head'⟩ (ih tail')

/-- A choice for every related pair, related to both of its members. -/
theorem forall₂_between {α β γ : Type} {relation : α → β → Prop} {first : α → γ → Prop}
    {second : γ → β → Prop} {xs : List α} {ys : List β} (related : List.Forall₂ relation xs ys)
    (each : ∀ x y, relation x y → ∃ z, first x z ∧ second z y) :
    ∃ zs, List.Forall₂ first xs zs ∧ List.Forall₂ second zs ys := by
  induction related with
  | nil => exact ⟨[], .nil, .nil⟩
  | cons head tail ih =>
    obtain ⟨z, left, right⟩ := each _ _ head
    obtain ⟨zs, lefts, rights⟩ := ih
    exact ⟨z :: zs, .cons left lefts, .cons right rights⟩

namespace Traced

variable {α β : Type}

instance : LawfulMonad Traced := LawfulMonad.mk' _
  (by
    intro α x
    obtain ⟨events, outcome⟩ := x
    cases outcome with
    | error e => rfl
    | ok a => simp [Functor.map, andThen])
  (by
    intro α β a f
    simp [bind, pure, andThen])
  (by
    intro α β γ x f g
    obtain ⟨events, outcome⟩ := x
    cases outcome with
    | error e => rfl
    | ok a =>
      simp only [bind, andThen]
      cases (f a).outcome with
      | error e => rfl
      | ok b => simp [List.append_assoc])

@[simp] theorem outcome_pure (a : α) : (pure a : Traced α).outcome = .ok a := rfl

@[simp] theorem outcome_log (e : Event) : (log e).outcome = .ok () := rfl

@[simp] theorem outcome_lift (outcome : Except Error α) : (lift outcome).outcome = outcome := rfl

@[simp] theorem events_pure (a : α) : (pure a : Traced α).events = [] := rfl

@[simp] theorem events_log (e : Event) : (log e).events = [e] := rfl

@[simp] theorem events_lift (outcome : Except Error α) : (lift outcome).events = [] := rfl

@[simp] theorem outcome_bind (x : Traced α) (f : α → Traced β) :
    (x >>= f).outcome = x.outcome >>= fun a => (f a).outcome := by
  obtain ⟨events, outcome⟩ := x
  cases outcome <;> rfl

theorem outcome_log_if (c : Prop) [Decidable c] (e : Event) (x : Traced α) :
    (if c then log e >>= fun _ => x else x).outcome = x.outcome := by
  split
  · rw [outcome_bind]
    rfl
  · rfl

@[simp] theorem outcome_mapM (f : α → Traced β) (items : List α) :
    (items.mapM f).outcome = items.mapM fun x => (f x).outcome := by
  induction items with
  | nil => rfl
  | cons x rest ih => simp only [List.mapM_cons, outcome_bind, outcome_pure, ih]; rfl

/-- A sequence that succeeds does so in both steps, and its log is theirs in this order. -/
theorem bind_eq_ok {x : Traced α} {f : α → Traced β} {b : β} (ok : (x >>= f).outcome = .ok b) :
    ∃ a, x.outcome = .ok a ∧ (f a).outcome = .ok b ∧ (x >>= f).events = x.events ++ (f a).events := by
  rw [outcome_bind] at ok
  obtain ⟨a, first, second⟩ := bind_success ok
  refine ⟨a, first, second, ?_⟩
  show (andThen x f).events = _
  simp only [andThen, first]

theorem mapM_eq_ok {f : α → Traced β} {items : List α} {values : List β}
    (ok : (items.mapM f).outcome = .ok values) :
    List.Forall₂ (fun x y => (f x).outcome = .ok y) items values ∧
      (items.mapM f).events = items.flatMap fun x => (f x).events := by
  induction items generalizing values with
  | nil =>
    cases ok
    exact ⟨.nil, rfl⟩
  | cons x rest ih =>
    rw [List.mapM_cons] at ok ⊢
    obtain ⟨y, first, ok, log⟩ := bind_eq_ok ok
    obtain ⟨ys, others, last, log'⟩ := bind_eq_ok ok
    obtain ⟨related, logs⟩ := ih others
    cases last
    refine ⟨.cons first related, ?_⟩
    rw [log, log', logs, events_pure, List.append_nil, List.flatMap_cons]

end Traced
end SimdDispatch
