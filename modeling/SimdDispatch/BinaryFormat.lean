/-!
Binary interchange formats without their signs. A finite value is a natural number times a power
of two; encoding rounds an exact value to the nearest one of the format, a tie to the even one.
-/
namespace SimdDispatch

structure BinaryFormat where
  /-- Binary digits of a significand, the leading one included. -/
  precision : Nat
  exponentBits : Nat

namespace BinaryFormat

def single : BinaryFormat := ⟨24, 8⟩

def double : BinaryFormat := ⟨53, 11⟩

def minExponent (f : BinaryFormat) : Int := 3 - (1 <<< (f.exponentBits - 1) : Nat) - f.precision

/-- The code of infinity, which is also the first one that is no finite value. -/
def infinity (f : BinaryFormat) : Nat := (1 <<< f.exponentBits - 1) <<< (f.precision - 1)

def notNumber (f : BinaryFormat) : Nat := f.infinity + 1 <<< (f.precision - 2)

/-- `m / 2 ^ k` rounded to the nearest natural number, a tie to the even one. -/
def shiftRound (m k : Nat) : Nat :=
  let quotient := m >>> k
  let twice := 2 * (m - quotient <<< k)
  let unit := 1 <<< k
  if twice > unit || (twice == unit && quotient % 2 == 1) then quotient + 1 else quotient

/-- The code of the value nearest to `m * 2 ^ e`. Codes ascend with the values, so that a
significand which rounds up to the next power of two carries into the exponent. -/
def encode (f : BinaryFormat) (m : Nat) (e : Int) : Nat :=
  if m = 0 then 0 else
    let last := max (e + (m.log2 + 1) - f.precision) f.minExponent
    let significand := if e ≤ last then shiftRound m (last - e).toNat else m <<< (e - last).toNat
    min f.infinity ((last - f.minExponent).toNat <<< (f.precision - 1) + significand)

/-- The finite value of a code as `m * 2 ^ e`. -/
def decode (f : BinaryFormat) (code : Nat) : Nat × Int :=
  let hidden := 1 <<< (f.precision - 1)
  let exponent := code / hidden
  let fraction := code % hidden
  if exponent = 0 then (fraction, f.minExponent)
  else (hidden + fraction, f.minExponent + (exponent - 1 : Nat))

/-- Whether the gap to the next lower value is half the gap to the next higher one. -/
def narrowBelow (f : BinaryFormat) (code : Nat) : Bool :=
  let hidden := 1 <<< (f.precision - 1)
  code % hidden == 0 && code / hidden > 1

end BinaryFormat
end SimdDispatch
