/-!
What a call promises about the addresses of its buffers.
-/
namespace SimdDispatch

inductive Contract where
  /-- Every buffer starts on the boundary of the machine table. -/
  | aligned
  /-- Buffers may start anywhere. -/
  | unaligned
deriving DecidableEq

def Contract.label : Contract → String
  | .aligned => "Aligned"
  | .unaligned => "Unaligned"

end SimdDispatch
