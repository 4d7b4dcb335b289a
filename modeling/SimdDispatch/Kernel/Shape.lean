/-!
The call signatures of the numeric primitives. A primitive of a shape is usually named after it.
-/
namespace SimdDispatch

inductive Shape where
  | sumOfPoly
  | deinterleave
deriving DecidableEq

namespace Shape

def name : Shape → String
  | sumOfPoly => "sum_of_poly"
  | deinterleave => "deinterleave"

/-- The capitalised name used in messages and descriptions. -/
def label : Shape → String
  | sumOfPoly => "SumOfPoly"
  | deinterleave => "Deinterleave"

end Shape
end SimdDispatch
