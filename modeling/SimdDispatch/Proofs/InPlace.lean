import SimdDispatch.InPlace
import SimdDispatch.Proofs.Event

/-!
Calls in place beside calls that give new outputs: they succeed and fail alike, success leaves the
outputs that the other call gives, and a refusal leaves the outputs as they were.
-/
namespace SimdDispatch

namespace Writing

variable {ε α β γ : Type}

@[simp] theorem liftExcept_on (x : Except ε β) (out : Deinterleave.Outputs α) :
    on (liftExcept x) out = (x, out) := by
  cases x <;> rfl

theorem bind_on (x : Writing ε α β) (next : β → Writing ε α γ) (out : Deinterleave.Outputs α) :
    (x >>= next).on out =
      match x.on out with
      | (.ok b, mid) => (next b).on mid
      | (.error e, mid) => (.error e, mid) := by
  change (ExceptT.bindCont next (x.on out).1).run (x.on out).2 = _
  cases x.on out with
  | mk result mid => cases result <;> rfl

theorem liftExcept_bind_on (x : Except ε β) (next : β → Writing ε α γ)
    (out : Deinterleave.Outputs α) :
    (liftExcept x >>= next).on out =
      match x with
      | .ok b => (next b).on out
      | .error e => (.error e, out) := by
  rw [bind_on, liftExcept_on]
  cases x <;> rfl

theorem change_on (f : Deinterleave.Outputs α → Except ε (Deinterleave.Outputs α))
    (out : Deinterleave.Outputs α) :
    (change f).on out =
      match f out with
      | .ok after => (.ok (), after)
      | .error e => (.error e, out) := by
  change (liftExcept (f out) >>= fun after => (set after : Writing ε α Unit)).on out = _
  rw [liftExcept_bind_on]
  cases f out <;> rfl

/-- A computation in place that comes to what a function of the outputs comes to. -/
structure Follows (x : Writing ε α Unit)
    (f : Deinterleave.Outputs α → Except ε (Deinterleave.Outputs α)) : Prop where
  ok : ∀ {out after}, f out = .ok after → x.on out = (.ok (), after)
  error : ∀ {out e}, f out = .error e → (x.on out).1 = .error e

section Follows

variable {f g : Deinterleave.Outputs α → Except ε (Deinterleave.Outputs α)} {x y : Writing ε α Unit}

theorem follows_change : Follows (change f) f where
  ok made := by rw [change_on, made]
  error failed := by rw [change_on, failed]

theorem follows_pure : Follows (pure ()) (fun out => (.ok out : Except ε (Deinterleave.Outputs α))) where
  ok made := by
    cases made
    rfl
  error failed := by cases failed

theorem Follows.bind (first : Follows x f) (second : Follows y g) :
    Follows (x >>= fun _ => y) fun out => f out >>= g where
  ok {out after} made := by
    obtain ⟨mid, early, late⟩ := bind_success made
    rw [bind_on, first.ok early]
    exact second.ok late
  error {out e} failed := by
    rw [bind_on]
    cases early : f out with
    | ok mid =>
      rw [early] at failed
      rw [first.ok early]
      exact second.error failed
    | error e' =>
      rw [early] at failed
      cases failed
      have stopped := first.error early
      revert stopped
      cases x.on out with
      | mk result mid =>
        rintro rfl
        rfl

theorem follows_lift (e : Except ε β) {next : β → Writing ε α Unit}
    {step : β → Deinterleave.Outputs α → Except ε (Deinterleave.Outputs α)}
    (each : ∀ b, Follows (next b) (step b)) :
    Follows (liftExcept e >>= next) fun out => e >>= fun b => step b out where
  ok {out after} made := by
    obtain ⟨b, rfl, late⟩ := bind_success made
    rw [liftExcept_bind_on]
    exact (each b).ok late
  error {out e'} failed := by
    rw [liftExcept_bind_on]
    cases e with
    | ok b => exact (each b).error failed
    | error e =>
      cases failed
      rfl

theorem follows_forM {step : Nat → Writing ε α Unit}
    {fold : Deinterleave.Outputs α → Nat → Except ε (Deinterleave.Outputs α)}
    (each : ∀ g, Follows (step g) fun out => fold out g) (groups : List Nat) :
    Follows (groups.forM step) (groups.foldlM fold) := by
  induction groups with
  | nil => exact follows_pure
  | cons g rest ih => exact (each g).bind ih

end Follows

end Writing

namespace Deinterleave

variable {α : Type} {width : Nat}

theorem splitGroup_follows (boundary : Nat) (lanes : Slice α)
    (even odd : Vector α width → Vector α width → Vector α width) (g : Nat) :
    Writing.Follows (splitGroup boundary lanes even odd g) fun out => do
      let a ← lanes.load boundary width (2 * width * g)
      let b ← lanes.load boundary width (2 * width * g + width)
      return (← out.1.store boundary (width * g) (even a b),
        ← out.2.store boundary (width * g) (odd a b)) := by
  refine Writing.follows_lift _ fun a => Writing.follows_lift _ fun b => ?_
  have stores := (Writing.follows_change (f := fun (out : Outputs α) => do
      return (← out.1.store boundary (width * g) (even a b), out.2))).bind
    (Writing.follows_change (f := fun (out : Outputs α) => do
      return (out.1, ← out.2.store boundary (width * g) (odd a b))))
  refine ⟨fun {out after} made => stores.ok ?_, fun {out e} failed => stores.error ?_⟩
  · rw [← made]
    cases out.1.store boundary (width * g) (even a b) <;> rfl
  · rw [← failed]
    cases out.1.store boundary (width * g) (even a b) <;> rfl

theorem runInPlace_follows (v : Variant) (input : Slice (Complex α)) :
    Writing.Follows (runInPlace v input) fun out => run v out.1 out.2 input := by
  cases v with
  | scalar => exact Writing.follows_change
  | fourLanes =>
    exact (Writing.follows_forM (splitGroup_follows _ _ _ _) _).bind Writing.follows_change
  | eightLanes onBoundary =>
    exact (Writing.follows_forM (splitGroup_follows _ _ _ _) _).bind Writing.follows_change

/-- A kernel whose checks were left out has stored the real parts of a group when it fails. -/
example : (runInPlace .fourLanes ⟨0, .replicate 4 (Complex.mk 1 2)⟩).on
      (⟨32, .replicate 4 0⟩, ⟨48, .replicate 3 0⟩) =
    (.error .outOfRange, (⟨32, .replicate 4 1⟩, ⟨48, .replicate 3 0⟩)) := rfl

end Deinterleave

namespace Writing

variable {α β : Type}

/-- What a call in place comes to on given outputs, against a call that gives new ones. Only a kernel
that faults, whose caller broke its contract, may leave anything but what was there. -/
structure Mirrors (x : Writing CallFailure α Unit) (out : Deinterleave.Outputs α)
    (result : Except CallFailure (Deinterleave.Outputs α)) : Prop where
  ok : ∀ {after}, result = .ok after → x.on out = (.ok (), after)
  error : ∀ {e}, result = .error e →
    (x.on out).1 = .error e ∧ ((∀ f, e ≠ .fault f) → (x.on out).2 = out)

theorem mirrors_get {next : Deinterleave.Outputs α → Writing CallFailure α Unit}
    {out : Deinterleave.Outputs α} {result : Except CallFailure (Deinterleave.Outputs α)}
    (mirrors : Mirrors (next out) out result) : Mirrors (get >>= next) out result where
  ok := mirrors.ok
  error := mirrors.error

theorem mirrors_lift (e : Except CallFailure β) {next : β → Writing CallFailure α Unit}
    {out : Deinterleave.Outputs α} {step : β → Except CallFailure (Deinterleave.Outputs α)}
    (each : ∀ b, Mirrors (next b) out (step b)) : Mirrors (liftExcept e >>= next) out (e >>= step) := by
  cases e with
  | ok b =>
    refine ⟨fun made => ?_, fun failed => ?_⟩ <;> rw [liftExcept_bind_on]
    · exact (each b).ok made
    · exact (each b).error failed
  | error e =>
    refine ⟨nofun, fun failed => ?_⟩
    cases failed
    rw [liftExcept_bind_on]
    exact ⟨rfl, fun _ => rfl⟩

theorem adapt_on (x : Writing AccessFault α Unit) (out : Deinterleave.Outputs α) :
    on (x.adapt CallFailure.fault) out = ((x.on out).1.mapError .fault, (x.on out).2) := by
  change (Except.mapError CallFailure.fault <$> x.run).run out = _
  rfl

theorem mirrors_kernel (v : Deinterleave.Variant) (real imag : Slice α) (input : Slice (Complex α)) :
    Mirrors ((Deinterleave.runInPlace v input).adapt .fault) (real, imag)
      (Registry.accessed (Deinterleave.run v real imag input)) := by
  have follows := Deinterleave.runInPlace_follows v input
  cases ran : Deinterleave.run v real imag input with
  | ok after =>
    refine ⟨fun made => ?_, nofun⟩
    cases made
    rw [adapt_on, follows.ok ran]
    rfl
  | error f =>
    refine ⟨nofun, fun failed => ?_⟩
    cases failed
    rw [adapt_on, follows.error ran]
    exact ⟨rfl, fun other => absurd rfl (other f)⟩

end Writing

namespace Registry

variable (r : Registry) (real imag : Slice Single) (input : Slice (Complex Single))

theorem splitInPlace_mirrors (contract : Contract) :
    Writing.Mirrors (r.splitInPlace contract input) (real, imag)
      (r.split contract real imag input) :=
  Writing.mirrors_get <| Writing.mirrors_lift (checkOutputs real imag input) fun _ =>
    Writing.mirrors_kernel (r.deinterleave.for contract) real imag input

theorem splitWithInPlace_mirrors (name : String) :
    Writing.Mirrors (r.splitWithInPlace name input) (real, imag)
      (r.splitWith name real imag input) :=
  Writing.mirrors_lift (r.named .deinterleave Implementation.deinterleave? name) fun (i, v) =>
    Writing.mirrors_get <| Writing.mirrors_lift (checkOutputs real imag input) fun _ =>
      Writing.mirrors_lift
        (checkAlignment i [input.address, real.address, imag.address] (input.size == 0)) fun _ =>
          Writing.mirrors_kernel v real imag input

end Registry
end SimdDispatch
