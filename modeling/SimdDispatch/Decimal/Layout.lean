import SimdDispatch.Decimal.Shortest
import SimdDispatch.Single

/-!
How decimals are written: positionally while the leading digit stands within given bounds, and with
an exponent outside them. A positional text always has a point.
-/
namespace SimdDispatch.Decimal

structure Layout where
  /-- The least power of ten of a leading digit that is written positionally. -/
  plainFrom : Int
  /-- The least power of ten above it that is not. -/
  plainBelow : Int
  /-- A plus sign before exponents that are not negative. -/
  plus : Bool
  tie : Tie
  nan : String
  infinity : String
  negativeInfinity : String

def Layout.text (l : Layout) (f : BinaryFormat) (negative : Bool) (code : Nat) : String :=
  let sign := if negative then "-" else ""
  if code > f.infinity then l.nan
  else if code == f.infinity then if negative then l.negativeInfinity else l.infinity
  else if code == 0 then sign ++ "0.0"
  else
    let s := shortest f l.tie code
    let digits := Nat.toDigits 10 s.digits
    let lead : Int := s.exponent + (digits.length - 1 : Nat)
    let zeros (n : Nat) := List.replicate n '0'
    let body : List Char :=
      if lead < l.plainFrom ∨ l.plainBelow ≤ lead then
        digits.take 1 ++ (if digits.length > 1 then '.' :: digits.drop 1 else []) ++ ['e'] ++
          (if lead < 0 then ['-'] else if l.plus then ['+'] else []) ++ Nat.toDigits 10 lead.natAbs
      else if lead < 0 then ['0', '.'] ++ zeros (lead.natAbs - 1) ++ digits
      else
        let whole := lead.toNat + 1
        if digits.length ≤ whole then digits ++ zeros (whole - digits.length) ++ ['.', '0']
        else digits.take whole ++ '.' :: digits.drop whole
    sign ++ String.ofList body

def Layout.single (l : Layout) (x : Single) : String :=
  l.text BinaryFormat.single x.isNegative x.magnitude

def Layout.double (l : Layout) (x : Float) : String :=
  l.text BinaryFormat.double (x.toBits >>> 63 == 1) (x.toBits &&& 0x7FFFFFFFFFFFFFFF).toNat

end SimdDispatch.Decimal
