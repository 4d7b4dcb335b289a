import SimdDispatch.Slice

/-!
Splitting complex samples into their real and imaginary parts, one sample at a time or in groups
that are regrouped lane by lane. Only data moves; no arithmetic is done on it.
-/
namespace SimdDispatch.Deinterleave

variable {α : Type}

def lowerHalves (a b : Vector α 8) : Vector α 8 := #v[a[0], a[1], a[2], a[3], b[0], b[1], b[2], b[3]]

def upperHalves (a b : Vector α 8) : Vector α 8 := #v[a[4], a[5], a[6], a[7], b[4], b[5], b[6], b[7]]

def evenLanes (a b : Vector α 4) : Vector α 4 := #v[a[0], a[2], b[0], b[2]]

def oddLanes (a b : Vector α 4) : Vector α 4 := #v[a[1], a[3], b[1], b[3]]

/-- The even lanes of two vectors, taken from each half apart. -/
def evenLanesByHalf (a b : Vector α 8) : Vector α 8 :=
  #v[a[0], a[2], b[0], b[2], a[4], a[6], b[4], b[6]]

def oddLanesByHalf (a b : Vector α 8) : Vector α 8 :=
  #v[a[1], a[3], b[1], b[3], a[5], a[7], b[5], b[7]]

inductive Variant where
  | scalar
  /-- Four samples at a time, on a boundary of sixteen bytes. -/
  | fourLanes
  /-- Eight samples at a time, on a boundary of thirty-two bytes or anywhere. -/
  | eightLanes (aligned : Bool)
deriving DecidableEq

def Variant.boundary : Variant → Nat
  | .scalar => 1
  | .fourLanes => 16
  | .eightLanes aligned => if aligned then 32 else 1

def Variant.group : Variant → Nat
  | .scalar => 1
  | .fourLanes => 4
  | .eightLanes _ => 8

abbrev Outputs (α : Type) := Slice α × Slice α

def splitFour (boundary : Nat) (lanes : Slice α) (out : Outputs α) (g : Nat) :
    Except AccessFault (Outputs α) := do
  let a ← lanes.load boundary 4 (8 * g)
  let b ← lanes.load boundary 4 (8 * g + 4)
  let (real, imag) := out
  return (← real.store boundary (4 * g) (evenLanes a b), ← imag.store boundary (4 * g) (oddLanes a b))

def splitEight (boundary : Nat) (lanes : Slice α) (out : Outputs α) (g : Nat) :
    Except AccessFault (Outputs α) := do
  let a ← lanes.load boundary 8 (16 * g)
  let b ← lanes.load boundary 8 (16 * g + 8)
  let lower := lowerHalves a b
  let upper := upperHalves a b
  let (real, imag) := out
  return (← real.store boundary (8 * g) (evenLanesByHalf lower upper),
    ← imag.store boundary (8 * g) (oddLanesByHalf lower upper))

/-- The samples from `base` on, one at a time, as far as both outputs reach. -/
def splitRest (input : Slice (Complex α)) (base : Nat) (out : Outputs α) : Outputs α :=
  let (real, imag) := out
  let last := min input.size (min real.size imag.size)
  let rest := (input.elements.extract base last).zipIdx base
  let (re, im) := rest.foldl
    (fun (re, im) (z, i) => (re.setIfInBounds i z.re, im.setIfInBounds i z.im))
    (real.elements, imag.elements)
  ({ real with elements := re }, { imag with elements := im })

/-- The samples behind the whole groups; the outputs must reach as far as the input. -/
def splitTail (input : Slice (Complex α)) (base : Nat) (out : Outputs α) :
    Except AccessFault (Outputs α) :=
  if input.size ≤ out.1.size ∧ input.size ≤ out.2.size then .ok (splitRest input base out)
  else .error .outOfRange

def run (v : Variant) (real imag : Slice α) (input : Slice (Complex α)) :
    Except AccessFault (Outputs α) := do
  let groups := List.range (input.size / v.group)
  match v with
  | .scalar => return splitRest input 0 (real, imag)
  | .fourLanes =>
    let out ← groups.foldlM (splitFour v.boundary input.lanes) (real, imag)
    splitTail input (input.size / v.group * v.group) out
  | .eightLanes _ =>
    let out ← groups.foldlM (splitEight v.boundary input.lanes) (real, imag)
    splitTail input (input.size / v.group * v.group) out

end SimdDispatch.Deinterleave
