import SimdDispatch.Single

/-!
Numbers in JSON documents. A whole number that fits sixty-four bits is exact; any other is its
leading digits, as many as fit sixty-four bits, scaled by a power of ten in eight-byte arithmetic.
-/
namespace SimdDispatch.Json

structure Number where
  negative : Bool
  /-- The digits before the point. -/
  whole : List Char
  /-- The digits after the point. -/
  fraction : List Char
  exponent : Option (Bool × List Char)
  plain : Bool
deriving DecidableEq

def digitValue (c : Char) : Nat := c.toNat - '0'.toNat

def maxWord : Nat := UInt64.size - 1

/-- Digits taken into a significand while it fits sixty-four bits, and the digits left over. -/
def accumulate (significand : Nat) : List Char → Nat × List Char
  | [] => (significand, [])
  | c :: rest =>
    let more := 10 * significand + digitValue c
    if more ≤ maxWord then accumulate more rest else (significand, c :: rest)

namespace Number

/-- The largest power of ten that one multiplication or division applies. -/
def maxStep : Nat := 308

def powerOfTen (k : Nat) : Float :=
  Float.ofBits (UInt64.ofNat (BinaryFormat.double.encode (Nat.pow 10 k) 0))

def divideByPower (x : Float) : Nat → Nat → Float
  | 0, _ => x
  | fuel + 1, k =>
    if k ≤ maxStep then x / powerOfTen k
    else if x == 0 then x
    else divideByPower (x / powerOfTen maxStep) fuel (k - maxStep)

/-- A significand scaled by a power of ten, unless the result is out of range. -/
def scale? (significand : Nat) (exponent : Int) : Option Float :=
  let x := (UInt64.ofNat significand).toFloat
  if exponent < 0 then some (divideByPower x exponent.natAbs exponent.natAbs)
  else if exponent.toNat ≤ maxStep then
    let scaled := x * powerOfTen exponent.toNat
    if scaled.isInf then none else some scaled
  else if significand = 0 then some x else none

/-- The leading digits of a number and the power of ten of the last one. -/
def significand (n : Number) : Nat × Int :=
  let (whole, dropped) := accumulate 0 n.whole
  let (all, unused) := accumulate whole n.fraction
  (all, (dropped.length : Int) - (n.fraction.length - unused.length : Nat))

/-- The largest exponent that is read exactly; beyond it only the sign counts. -/
def maxExponent : Nat := 1 <<< 31 - 1

def writtenExponent (n : Number) : Int :=
  match n.exponent with
  | none => 0
  | some (negative, digits) =>
    let size := digits.foldl (fun k c => 10 * k + digitValue c) 0
    if negative then -(size : Int) else size

def isExtreme (n : Number) : Bool := n.writtenExponent.natAbs > maxExponent

def magnitude? (n : Number) : Option Float :=
  let (significand, exponent) := n.significand
  if n.isExtreme then
    if significand = 0 || n.writtenExponent < 0 then some 0 else none
  else scale? significand (exponent + n.writtenExponent)

def natural? (n : Number) : Option Nat :=
  if n.plain && !n.negative then
    match accumulate 0 n.whole with
    | (value, []) => some value
    | _ => none
  else none

/-- The whole number below zero that is written, if it fits sixty-four bits; its size. -/
def negated? (n : Number) : Option Nat :=
  if n.plain && n.negative then
    match accumulate 0 n.whole with
    | (value, []) => if 0 < value && value ≤ 1 <<< 63 then some value else none
    | _ => none
  else none

def double? (n : Number) : Option Float :=
  (fun x => if n.negative then -x else x) <$> n.magnitude?

/-- The four-byte number that is written: whole ones are rounded once, others through eight bytes. -/
def single? (n : Number) : Option Single :=
  match n.natural?, n.negated? with
  | some value, _ => some (.ofMagnitude false (BinaryFormat.single.encode value 0))
  | _, some value => some (.ofMagnitude true (BinaryFormat.single.encode value 0))
  | none, none => Single.ofDouble <$> n.double?

end Number
end SimdDispatch.Json
