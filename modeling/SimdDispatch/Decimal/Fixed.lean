import SimdDispatch.BinaryFormat

/-!
Numbers with a fixed count of decimal places. The exact value is rounded to the nearest such
decimal, a tie to the even one.
-/
namespace SimdDispatch.Decimal

/-- `n / d` rounded to the nearest natural number, a tie to the even one. -/
def roundDiv (n d : Nat) : Nat :=
  let quotient := n / d
  let twice := 2 * (n % d)
  if twice > d || (twice == d && quotient % 2 == 1) then quotient + 1 else quotient

/-- `m * 2 ^ e * 10 ^ k` rounded. -/
def scaled (m : Nat) (e k : Int) : Nat :=
  roundDiv (m <<< e.toNat * Nat.pow 10 k.toNat) (Nat.pow 10 (-k).toNat <<< (-e).toNat)

def withPoint (places n : Nat) : String :=
  let digits := Nat.toDigits 10 n
  let padded := List.replicate (places + 1 - digits.length) '0' ++ digits
  let whole := padded.length - places
  String.ofList (padded.take whole) ++
    (if places = 0 then "" else "." ++ String.ofList (padded.drop whole))

def signed (x : Float) (text : Nat → Int → String) : String :=
  let negative := x.toBits >>> 63 == 1
  let code := (x.toBits &&& 0x7FFFFFFFFFFFFFFF).toNat
  if code > BinaryFormat.double.infinity then "NaN"
  else
    (if negative then "-" else "") ++
      if code == BinaryFormat.double.infinity then "inf"
      else let (m, e) := BinaryFormat.double.decode code; text m e

def fixed (places : Nat) (x : Float) : String :=
  signed x fun m e => withPoint places (scaled m e places)

/-- The power of ten of the leading digit of `m * 2 ^ e`, which is not zero. -/
def leadingPower (m : Nat) (e : Int) : Int :=
  let start : Int := ((m.log2 : Int) + e) * 30103 / 100000 - 1
  let reaches (k : Int) : Bool :=
    Nat.pow 10 k.toNat <<< (-e).toNat ≤ m <<< e.toNat * Nat.pow 10 (-k).toNat
  start + ((List.range 5).countP fun (j : Nat) => reaches (start + 1 + (j : Int)))

def scientific (places : Nat) (x : Float) : String :=
  signed x fun m e =>
    if m = 0 then withPoint places 0 ++ "e0"
    else
      let lead := leadingPower m e
      let n := scaled m e (places - lead)
      let carried := n == Nat.pow 10 (places + 1)
      withPoint places (if carried then n / 10 else n) ++ "e" ++
        toString (if carried then lead + 1 else lead)

end SimdDispatch.Decimal
