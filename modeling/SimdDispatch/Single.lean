import SimdDispatch.Arithmetic
import SimdDispatch.BinaryFormat

/-!
Four-byte binary floating-point numbers, kept as the bits that are stored: moving one never
changes them. Arithmetic rounds to the nearest value, a tie to the even one.
-/
namespace SimdDispatch

structure Single where
  bits : UInt32
deriving DecidableEq

namespace Single

@[inline] def value (x : Single) : Float32 := Float32.ofBits x.bits

@[inline] def ofValue (v : Float32) : Single := ⟨v.toBits⟩

instance : Zero Single := ⟨⟨0⟩⟩
@[inline] instance : Add Single := ⟨fun a b => ofValue (a.value + b.value)⟩
@[inline] instance : Mul Single := ⟨fun a b => ofValue (a.value * b.value)⟩

def magnitude (x : Single) : Nat := (x.bits &&& 0x7FFFFFFF).toNat

def isNegative (x : Single) : Bool := x.bits &&& 0x80000000 != 0

def isNaN (x : Single) : Bool := x.magnitude > BinaryFormat.single.infinity

def isInfinite (x : Single) : Bool := x.magnitude == BinaryFormat.single.infinity

def ofMagnitude (negative : Bool) (code : Nat) : Single :=
  ⟨(if negative then 0x80000000 else 0) ||| UInt32.ofNat code⟩

def nan : Single := ofMagnitude false BinaryFormat.single.notNumber

def ofCount (n : Nat) : Single := ofMagnitude false (BinaryFormat.single.encode n 0)

def ofDouble (x : Float) : Single :=
  let code := (x.toBits &&& 0x7FFFFFFFFFFFFFFF).toNat
  let negative := x.toBits >>> 63 == 1
  let infinite := BinaryFormat.double.infinity
  if code > infinite then nan
  else if code == infinite then ofMagnitude negative BinaryFormat.single.infinity
  else
    let (m, e) := BinaryFormat.double.decode code
    ofMagnitude negative (BinaryFormat.single.encode m e)

/-- The exact value of a finite number as an integer times a power of two. -/
def exact (x : Single) : Int × Int :=
  let (m, e) := BinaryFormat.single.decode x.magnitude
  (if x.isNegative then -(m : Int) else m, e)

def fma (a b c : Single) : Single :=
  let negative := a.isNegative != b.isNegative
  if a.isNaN || b.isNaN || c.isNaN then nan
  else if a.isInfinite || b.isInfinite then
    if a.magnitude == 0 || b.magnitude == 0 then nan
    else if c.isInfinite && c.isNegative != negative then nan
    else ofMagnitude negative BinaryFormat.single.infinity
  else if c.isInfinite then c
  else
    let (ma, ea) := a.exact
    let (mb, eb) := b.exact
    let (mc, ec) := c.exact
    let e := min (ea + eb) ec
    let sum := (ma * mb) <<< (ea + eb - e).toNat + mc <<< (ec - e).toNat
    if sum = 0 then ofMagnitude (negative && c.isNegative) 0
    else ofMagnitude (sum < 0) (BinaryFormat.single.encode sum.natAbs e)

/-- The place of a number in the order of all of them; both zeros have the same place. -/
def place (x : Single) : Int := if x.isNegative then -(x.magnitude : Int) else x.magnitude

def isLess (a b : Single) : Bool := !a.isNaN && !b.isNaN && a.place < b.place

/-- The larger number; where one operand is not a number, the other. -/
def maxNumber (a b : Single) : Single :=
  if a.isNaN then b else if b.isNaN then a else if a.isLess b then b else a

/-- The first operand where it is larger, otherwise the second. -/
def maxSecond (a b : Single) : Single := if b.isLess a then a else b

instance : Arithmetic Single where
  fma := fma
  maxNumber := maxNumber
  maxSecond := maxSecond
  ofCount := ofCount

end Single
end SimdDispatch
