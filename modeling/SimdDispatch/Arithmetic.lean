/-!
The operations that the numeric kernels use. The kernels are written over this interface, so that
the same loops run on four-byte numbers and can be read over exact ones.
-/
namespace SimdDispatch

class Arithmetic (α : Type) extends Zero α, Add α, Mul α where
  fma : α → α → α → α
  /-- The larger of two numbers; of a number and a missing one, the number. -/
  maxNumber : α → α → α
  /-- The first where it is larger, otherwise the second. -/
  maxSecond : α → α → α
  ofCount : Nat → α

export Arithmetic (fma maxNumber maxSecond ofCount)

end SimdDispatch
