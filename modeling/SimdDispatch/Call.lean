import SimdDispatch.Registry
import SimdDispatch.Single

/-!
Calling the kernels of a registry: through its slots, by contract, or by the name of an
implementation, which checks the addresses first. A call that fails has written nothing.
-/
namespace SimdDispatch

inductive CallFailure where
  | refused (error : Error)
  /-- An output is shorter than the input. -/
  | shortOutputs (real imag input : Nat)
  /-- The caller broke the contract of the kernel. -/
  | fault (fault : AccessFault)
  /-- The call needs a buffer that is larger than any can be. -/
  | tooLarge
deriving DecidableEq

/-- The wording of a failure, for those of which the caller is told more than that. -/
def CallFailure.message : CallFailure → Option String
  | refused e => some e.message
  | shortOutputs real imag input =>
    some s!"output buffers ({real}, {imag}) shorter than input ({input})"
  | fault _ | tooLarge => none

namespace Registry

def accessed {α : Type} : Except AccessFault α → Except CallFailure α
  | .ok a => .ok a
  | .error f => .error (.fault f)

def refusing {α : Type} : Except Error α → Except CallFailure α
  | .ok a => .ok a
  | .error e => .error (.refused e)

def sum (r : Registry) (contract : Contract) (input : Slice Single) (c : Coefficients Single)
    (cutoff : Single) : Except CallFailure Single :=
  accessed (SumOfPoly.run (r.sumOfPoly.for contract) input c cutoff)

/-- Both outputs must hold the whole input. -/
def checkOutputs (real imag : Slice Single) (input : Slice (Complex Single)) :
    Except CallFailure Unit :=
  if input.size ≤ real.size ∧ input.size ≤ imag.size then .ok ()
  else .error (.shortOutputs real.size imag.size input.size)

def split (r : Registry) (contract : Contract) (real imag : Slice Single)
    (input : Slice (Complex Single)) : Except CallFailure (Slice Single × Slice Single) := do
  checkOutputs real imag input
  accessed (Deinterleave.run (r.deinterleave.for contract) real imag input)

/-- Unless the input is empty, every address must be on the boundary of the implementation. -/
def checkAlignment (i : Implementation) (addresses : List Nat) (empty : Bool) :
    Except CallFailure Unit :=
  if empty || addresses.all (SimdDispatch.isAligned · i.alignment) then .ok ()
  else .error (.refused (.misaligned i.name i.alignment))

/-- The kernel of a named implementation, which must have the shape of its primitive. -/
def named {κ : Type} (r : Registry) (shape : Shape) (variant? : Implementation → Option κ)
    (name : String) : Except CallFailure (Implementation × κ) := do
  let i ← refusing (r.implementation shape.name name)
  match variant? i with
  | some kernel => return (i, kernel)
  | none => throw (.refused (.unknownImplementation shape.name name))

def sumWith (r : Registry) (name : String) (input : Slice Single) (c : Coefficients Single)
    (cutoff : Single) : Except CallFailure Single := do
  let (i, variant) ← r.named .sumOfPoly Implementation.sumOfPoly? name
  checkAlignment i [input.address] (input.size == 0)
  accessed (SumOfPoly.run variant input c cutoff)

def splitWith (r : Registry) (name : String) (real imag : Slice Single)
    (input : Slice (Complex Single)) : Except CallFailure (Slice Single × Slice Single) := do
  let (i, variant) ← r.named .deinterleave Implementation.deinterleave? name
  checkOutputs real imag input
  checkAlignment i [input.address, real.address, imag.address] (input.size == 0)
  accessed (Deinterleave.run variant real imag input)

end Registry
end SimdDispatch
