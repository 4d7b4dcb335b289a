import SimdDispatch.BinaryFormat

/-!
The shortest decimal that reads back to a binary number: of the decimals nearest to no other number
of the format, one with the fewest digits, and of those the closest one.
-/
namespace SimdDispatch.Decimal

structure Scientific where
  digits : Nat
  exponent : Int
deriving DecidableEq

/-- Which of two equally close decimals is taken. -/
inductive Tie where
  | up
  | even
deriving DecidableEq

/-- The numbers that read back to a value, with their ends if those belong to them, in quarters of
the last binary digit of the value. -/
structure Interval where
  low : Nat
  value : Nat
  high : Nat
  /-- The power of two of one quarter. -/
  scale : Int
  closed : Bool

/-- The numbers that round to the finite value of a code. -/
def Interval.of (f : BinaryFormat) (code : Nat) : Interval :=
  let (m, e) := f.decode code
  ⟨4 * m - (if f.narrowBelow code then 1 else 2), 4 * m, 4 * m + 2, e - 2, m % 2 == 0⟩

def ratio (scale grid : Int) : Nat × Nat :=
  (Nat.pow 10 (-grid).toNat <<< scale.toNat, Nat.pow 10 grid.toNat <<< (-scale).toNat)

def Interval.holds (i : Interval) (grid : Int) (d : Nat) : Bool :=
  let (n, u) := ratio i.scale grid
  if i.closed then i.low * n ≤ d * u && d * u ≤ i.high * n
  else i.low * n < d * u && d * u < i.high * n

/-- The decimal on a grid that reads back and is closest, if there is one. -/
def Interval.onGrid? (i : Interval) (tie : Tie) (grid : Int) : Option Nat :=
  let (n, u) := ratio i.scale grid
  let below := i.value * n / u
  match i.holds grid below, i.holds grid (below + 1) with
  | true, true =>
    let twice := 2 * (i.value * n)
    let middle := (2 * below + 1) * u
    if twice < middle then some below
    else if twice > middle then some (below + 1)
    else match tie with
      | .up => some (below + 1)
      | .even => some (if below % 2 == 0 then below else below + 1)
  | true, false => some below
  | false, true => some (below + 1)
  | false, false => none

/-- The least `k`, not below a bound, with the value less than `10 ^ k`. -/
def Interval.magnitude (i : Interval) : Int :=
  let start : Int := ((i.value.log2 : Int) + i.scale) * 30103 / 100000 - 1
  let below (k : Int) : Bool := let (n, u) := ratio i.scale k; i.value * n < u
  match (List.range 5).find? fun (j : Nat) => below (start + (j : Int)) with
  | some j => start + j
  | none => start + 5

def Scientific.strip : Nat → Scientific → Scientific
  | 0, s => s
  | fuel + 1, s =>
    if s.digits % 10 == 0 && s.digits != 0 then strip fuel ⟨s.digits / 10, s.exponent + 1⟩ else s

def Interval.exact (i : Interval) : Scientific :=
  ⟨i.value <<< i.scale.toNat * Nat.pow 5 (-i.scale).toNat, min i.scale 0⟩

/-- The shortest decimal for the finite, nonzero value of a code; up to seventeen digits are tried. -/
def shortest (f : BinaryFormat) (tie : Tie) (code : Nat) : Scientific :=
  let i := Interval.of f code
  let k := i.magnitude
  let found := (List.range 17).findSome? fun (n : Nat) =>
    let grid := k - (n + 1)
    (i.onGrid? tie grid).map fun d => (⟨d, grid⟩ : Scientific)
  Scientific.strip 20 (found.getD i.exact)

end SimdDispatch.Decimal
