import SimdDispatch.Alignment
import SimdDispatch.Kernel.Deinterleave
import SimdDispatch.Kernel.SumOfPoly

/-!
Implementations of numeric primitives: what each needs of the processor and of its buffers, and
the kernel that it runs.
-/
namespace SimdDispatch

inductive Kernel where
  | sumOfPoly (variant : SumOfPoly.Variant)
  | deinterleave (variant : Deinterleave.Variant)
deriving DecidableEq

namespace Kernel

def shape : Kernel → Shape
  | sumOfPoly _ => .sumOfPoly
  | deinterleave _ => .deinterleave

def boundary : Kernel → Nat
  | sumOfPoly v => v.boundary
  | deinterleave v => v.boundary

/-- The portable kernel of a shape. -/
def portable : Shape → Kernel
  | .sumOfPoly => sumOfPoly .scalar
  | .deinterleave => deinterleave .scalar

theorem boundary_portable (s : Shape) : (portable s).boundary = 1 := by cases s <;> rfl

end Kernel

structure Implementation where
  name : String
  required : CapabilitySet
  /-- The boundary, in bytes, on which every buffer must start; one for any address. -/
  alignment : Nat
  kernel : Kernel
  /-- Buffers on the declared boundary suit the kernel's accesses. -/
  sufficient : kernel.boundary ∣ alignment := by decide
deriving DecidableEq

namespace Implementation

/-- An implementation that runs the portable kernel of a shape, whatever it declares to need. -/
def portable (name : String) (required : CapabilitySet) (alignment : Nat) (shape : Shape) :
    Implementation :=
  ⟨name, required, alignment, .portable shape, by rw [Kernel.boundary_portable]; exact Nat.one_dvd _⟩

def shape (i : Implementation) : Shape := i.kernel.shape

def requiresAlignment (i : Implementation) : Bool := i.alignment > 1

/-- Needs no capability beyond the portable one and no boundary. -/
def isGeneric (i : Implementation) : Bool := i.required ⊆ CapabilitySet.generic && i.alignment ≤ 1

/-- May be called where `detected` is present and buffers start on `boundary`. -/
def isEligible (i : Implementation) (detected : CapabilitySet) (boundary : Nat) : Bool :=
  i.required ⊆ detected && i.alignment ≤ boundary

def sumOfPoly? (i : Implementation) : Option SumOfPoly.Variant :=
  match i.kernel with
  | .sumOfPoly v => some v
  | .deinterleave _ => none

def deinterleave? (i : Implementation) : Option Deinterleave.Variant :=
  match i.kernel with
  | .deinterleave v => some v
  | .sumOfPoly _ => none

end Implementation
end SimdDispatch
