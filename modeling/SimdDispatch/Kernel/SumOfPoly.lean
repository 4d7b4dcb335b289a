import SimdDispatch.Arithmetic
import SimdDispatch.Slice

/-!
The sum of a quartic polynomial over clamped values, in four lane layouts. Every layout sums whole
groups of eight values in its own order, then the rest one by one, then the constant terms.
-/
namespace SimdDispatch

/-- The coefficients `c1 x + c2 x² + c3 x³ + c4 x⁴ + c0`. -/
structure Coefficients (α : Type) where
  c1 : α
  c2 : α
  c3 : α
  c4 : α
  c0 : α
deriving DecidableEq

namespace SumOfPoly

variable {α : Type} [Arithmetic α]

/-- The polynomial without its constant term, added from left to right. -/
@[inline] def term (c : Coefficients α) (x : α) : α :=
  let square := x * x
  let cube := x * square
  let fourth := square * square
  c.c1 * x + c.c2 * square + c.c3 * cube + c.c4 * fourth

@[inline] def low (c : Coefficients α) (x : α) : α := x * c.c1 + (x * x) * c.c2

@[inline] def high (c : Coefficients α) (x : α) : α :=
  let square := x * x
  (x * square) * c.c3 + (square * square) * c.c4

/-- The linear and quadratic part, the first product fused with the sum. -/
@[inline] def lowFused (c : Coefficients α) (x : α) : α := fma x c.c1 ((x * x) * c.c2)

@[inline] def highFused (c : Coefficients α) (x : α) : α :=
  let square := x * x
  fma (x * square) c.c3 ((square * square) * c.c4)

/-- Eight lanes added pairwise from the first pair on. -/
def sumPairs (v : Vector α 8) : α :=
  (v.get 0 + v.get 1) + (v.get 2 + v.get 3) + (v.get 4 + v.get 5) + (v.get 6 + v.get 7)

def lowerHalf (v : Vector α 8) : Vector α 4 := #v[v.get 0, v.get 1, v.get 2, v.get 3]

def upperHalf (v : Vector α 8) : Vector α 4 := #v[v.get 4, v.get 5, v.get 6, v.get 7]

/-- Every odd lane in its own place and in the one before it. -/
def repeatOdd (v : Vector α 4) : Vector α 4 := #v[v.get 1, v.get 1, v.get 3, v.get 3]

/-- The upper two lanes in the places of both halves. -/
def repeatUpper (v : Vector α 4) : Vector α 4 := #v[v.get 2, v.get 3, v.get 2, v.get 3]

/-- Neighbouring lanes added, those of the first vector before those of the second. -/
def addNeighbours (v w : Vector α 4) : Vector α 4 :=
  #v[v.get 0 + v.get 1, v.get 2 + v.get 3, w.get 0 + w.get 1, w.get 2 + w.get 3]

/-- Eight lanes added across: the halves, then neighbours, then what is left. -/
def sumHalves (v : Vector α 8) : α :=
  let halves := (lowerHalf v).zipWith (· + ·) (upperHalf v)
  let pairs := halves.zipWith (· + ·) (repeatOdd halves)
  pairs.get 0 + (repeatUpper pairs).get 0

/-- Two vectors of four lanes added by three horizontal additions. -/
def sumHorizontally (v w : Vector α 4) : α :=
  let pairs := addNeighbours v w
  let halves := addNeighbours pairs pairs
  (addNeighbours halves halves).get 0

inductive Variant where
  | scalar
  /-- Two vectors of four lanes, read on a boundary of sixteen bytes. -/
  | fourLanes
  /-- One vector of eight lanes, read on a boundary of thirty-two bytes or anywhere. -/
  | eightLanes (aligned : Bool)
  | eightLanesFused (aligned : Bool)
deriving DecidableEq

def Variant.boundary : Variant → Nat
  | .scalar => 1
  | .fourLanes => 16
  | .eightLanes aligned => if aligned then 32 else 1
  | .eightLanesFused aligned => if aligned then 32 else 1

@[specialize] def foldGroups {β : Type} (boundary : Nat) (input : Slice α)
    (step : β → Vector α 8 → β) (start : β) : Except AccessFault β :=
  (List.range (input.size / 8)).foldlM (fun acc g => do
    let group ← input.load boundary 8 (8 * g)
    return step acc group) start

/-- The whole groups of eight lanes, each loaded as two vectors of four, and folded. -/
@[specialize] def foldHalves {β : Type} (boundary : Nat) (input : Slice α)
    (step : β → Vector α 4 → Vector α 4 → β) (start : β) : Except AccessFault β :=
  (List.range (input.size / 8)).foldlM (fun acc g => do
    let first ← input.load boundary 4 (8 * g)
    let second ← input.load boundary 4 (8 * g + 4)
    return step acc first second) start

@[specialize] def groupSum (v : Variant) (input : Slice α) (c : Coefficients α) (cutoff : α) :
    Except AccessFault α :=
  let zeros : Vector α 8 := .replicate 8 0
  match v with
  | .scalar =>
    sumPairs <$> foldGroups v.boundary input
      (fun acc x => acc.zipWith (fun a y => a + term c (maxNumber y cutoff)) x) zeros
  | .fourLanes =>
    let add (acc x : Vector α 4) := acc.zipWith
      (fun a y => let y := maxSecond y cutoff; a + (low c y + high c y)) x
    (fun (acc : Vector α 4 × Vector α 4) => sumHorizontally acc.1 acc.2) <$>
      foldHalves v.boundary input (fun acc x y => (add acc.1 x, add acc.2 y))
        (.replicate 4 0, .replicate 4 0)
  | .eightLanes _ =>
    sumHalves <$> foldGroups v.boundary input
      (fun acc x => acc.zipWith
        (fun a y => let y := maxSecond y cutoff; high c y + (low c y + a)) x) zeros
  | .eightLanesFused _ =>
    sumHalves <$> foldGroups v.boundary input
      (fun acc x => acc.zipWith
        (fun a y => let y := maxSecond y cutoff; highFused c y + (lowFused c y + a)) x) zeros

@[specialize] def tailSum (values : Array α) (c : Coefficients α) (cutoff : α) : α :=
  values.foldl (fun acc y => acc + term c (maxNumber y cutoff)) 0

@[specialize] def run (v : Variant) (input : Slice α) (c : Coefficients α) (cutoff : α) :
    Except AccessFault α := do
  let groups ← groupSum v input c cutoff
  let rest := input.elements.extract (input.size / 8 * 8) input.size
  return groups + tailSum rest c cutoff + ofCount input.size * c.c0

end SumOfPoly
end SimdDispatch
