import SimdDispatch.Error

/-!
Boundaries in memory, in bytes. An address is on a power-of-two boundary when masking it with the
boundary less one leaves nothing.
-/
namespace SimdDispatch

/-- A power of two; zero is none. -/
def isPowerOfTwo (n : Nat) : Bool := n != 0 && n &&& (n - 1) == 0

def isAligned (address boundary : Nat) : Bool := address &&& (boundary - 1) == 0

end SimdDispatch
