import SimdDispatch.Call

/-!
Calls that change their outputs in place, store by store. What was stored before an access fails
stays stored, so that they tell what a call that fails leaves behind.
-/
namespace SimdDispatch

/-- Computations on the outputs of a call. A failure keeps all changes made before it. -/
abbrev Writing (ε α β : Type) := ExceptT ε (StateM (Deinterleave.Outputs α)) β

namespace Writing

variable {ε α β : Type}

/-- The outcome of a computation, and the outputs after it. -/
def on (x : Writing ε α β) (out : Deinterleave.Outputs α) : Except ε β × Deinterleave.Outputs α :=
  (x.run.run out).run

/-- A change that is made as a whole or, where it fails, not at all. -/
def change (f : Deinterleave.Outputs α → Except ε (Deinterleave.Outputs α)) : Writing ε α Unit := do
  set (← liftExcept (f (← get)))

end Writing

namespace Deinterleave

variable {α : Type} {width : Nat}

/-- One group of samples, whose lanes are regrouped and stored, the real parts before the others. -/
def splitGroup (boundary : Nat) (lanes : Slice α)
    (even odd : Vector α width → Vector α width → Vector α width) (g : Nat) :
    Writing AccessFault α Unit := do
  let a ← liftExcept (lanes.load boundary width (2 * width * g))
  let b ← liftExcept (lanes.load boundary width (2 * width * g + width))
  Writing.change fun (real, imag) =>
    return (← real.store boundary (width * g) (even a b), imag)
  Writing.change fun (real, imag) =>
    return (real, ← imag.store boundary (width * g) (odd a b))

def splitGroups (v : Variant) (input : Slice (Complex α))
    (even odd : Vector α width → Vector α width → Vector α width) : Writing AccessFault α Unit := do
  (List.range (input.size / width)).forM (splitGroup v.boundary input.lanes even odd)
  Writing.change (splitTail input (input.size / width * width))

def runInPlace (v : Variant) (input : Slice (Complex α)) : Writing AccessFault α Unit :=
  match v with
  | .scalar => Writing.change fun out => .ok (splitRest input 0 out)
  | .fourLanes => splitGroups v input evenLanes oddLanes
  | .eightLanes _ => splitGroups v input
      (fun a b => evenLanesByHalf (lowerHalves a b) (upperHalves a b))
      (fun a b => oddLanesByHalf (lowerHalves a b) (upperHalves a b))

end Deinterleave

namespace Registry

def splitInPlace (r : Registry) (contract : Contract) (input : Slice (Complex Single)) :
    Writing CallFailure Single Unit := do
  let (real, imag) ← get
  liftExcept (checkOutputs real imag input)
  (Deinterleave.runInPlace (r.deinterleave.for contract) input).adapt .fault

def splitWithInPlace (r : Registry) (name : String) (input : Slice (Complex Single)) :
    Writing CallFailure Single Unit := do
  let (i, variant) ← liftExcept (r.named .deinterleave Implementation.deinterleave? name)
  let (real, imag) ← get
  liftExcept (checkOutputs real imag input)
  liftExcept (checkAlignment i [input.address, real.address, imag.address] (input.size == 0))
  (Deinterleave.runInPlace variant input).adapt .fault

end Registry
end SimdDispatch
