import SimdDispatch.Buffer
import SimdDispatch.Call
import SimdDispatch.Report.Basic

/-!
Profiling a registry: every implementation of its machine is run on the same buffers, compared with
the portable one and timed. How long a run takes and where a buffer starts is not known here; both
are given.
-/
namespace SimdDispatch

/-- The number of a double by the order of all doubles, from the negative ones that are no numbers
to the positive ones that are none. -/
def totalOrder (x : Float) : Int :=
  let magnitude : Int := (x.toBits &&& 0x7FFFFFFFFFFFFFFF).toNat
  if x.toBits >>> 63 == 1 then -magnitude - 1 else magnitude

structure Comparison where
  maxRelError : Float
  passed : Bool

namespace Timing

def of (i : Implementation) (elapsed iterations : Nat) (c : Comparison) : Timing where
  totalMs := Float.ofNat elapsed / 1000000
  perCallNs := Float.ofNat elapsed / Float.ofNat iterations
  alignment := i.alignment
  maxRelError := c.maxRelError
  passed := c.passed

def faster (a b : Timing) : Bool := totalOrder a.perCallNs < totalOrder b.perCallNs

end Timing

/-- Keeps the faster of a choice and the next result; the earlier of equals stays. -/
def fasterResult (best : Option (String × Timing)) (next : String × Timing) :
    Option (String × Timing) :=
  match best with
  | some b => if next.2.faster b.2 then some next else some b
  | none => some next

/-- The name of the fastest of the results that passed and are accepted; the portable
implementation where there is none. -/
def fastest (results : List (String × Timing)) (accept : Timing → Bool) : String :=
  match (results.filter fun r => r.2.passed && accept r.2).foldl fasterResult none with
  | some (name, _) => name
  | none => "generic"

def PrimitiveReport.of (name : String) (results : List (String × Timing)) : PrimitiveReport where
  name
  results
  bestAligned := fastest results fun _ => true
  bestUnaligned := fastest results fun t => t.alignment ≤ 1

namespace Profile

/-- The largest relative deviation of a sum that passes. -/
def tolerance : Single := Single.ofDouble 1e-4

def coefficients : Coefficients Single :=
  ⟨.ofDouble 1, .ofDouble 0.5, .ofValue (1 / 6), .ofValue (1 / 24), .ofDouble 1⟩

def cutoff : Single := .ofDouble (-2)

/-- Value `i` of the signal that is measured on, between minus three and three. -/
def signal (i : Nat) : Single :=
  .ofValue (((Single.ofCount i).value * 0.37).sin * 3)

def minNormal : Single := ⟨0x00800000⟩

/-- The deviation of a sum relative to the reference. -/
def deviation (value reference : Single) : Float :=
  let scale := Single.maxNumber (.ofValue reference.value.abs) minNormal
  ((value.value - reference.value).abs / scale.value).toFloat

def sameValues (a b : Slice Single) : Bool :=
  a.size == b.size && (a.elements.zip b.elements).all fun (x, y) => x.value == y.value

end Profile

namespace Comparison

open Profile

def ofSums (value reference : Single) : Comparison :=
  let relative := deviation value reference
  ⟨relative, relative ≤ tolerance.value.toFloat⟩

/-- Both outputs must hold the same values. -/
def ofSplits (output reference : Slice Single × Slice Single) : Comparison :=
  let passed := sameValues output.1 reference.1 && sameValues output.2 reference.2
  ⟨if passed then 0 else 1, passed⟩

end Comparison

namespace Profile

/-- Where a buffer starts: on a block, wherever that is. -/
abbrev Start := { address : Nat // maxAlignment ∣ address }

/-- The starts of the buffers that one primitive is profiled on. The portable implementation has
outputs of its own. -/
structure Placement where
  input : Start
  real : Start
  imag : Start
  referenceReal : Start
  referenceImag : Start

/-- Every buffer at the start of memory, which is on every boundary. -/
def Placement.origin : Placement :=
  let start : Start := ⟨0, Nat.dvd_zero _⟩
  ⟨start, start, start, start, start⟩

def placed {α : Type} [Element α] (start : Start) (b : Buffer α) : Slice α := ⟨start, b.toArray⟩

def sumInput (start : Start) (points : Nat) : Slice Single :=
  placed start (Buffer.ofList ((List.range points).map signal))

def splitInput (start : Start) (points : Nat) : Slice (Complex Single) :=
  placed start (Buffer.ofList ((List.range points).map fun i => ⟨signal i, signal (i + points)⟩))

def splitOutput (start : Start) (points : Nat) : Slice Single := placed start (Buffer.zeroed points)

/-- Whether the input of a call can have this many points. -/
def fits (shape : Shape) (points : Nat) : Bool :=
  match shape with
  | .sumOfPoly => Buffer.fits Single points
  | .deinterleave => Buffer.fits (Complex Single) points

/-- Runs the reference, then every implementation by its name, and judges each by the reference. -/
def compareWith {α : Type} (reference : Except CallFailure α)
    (named : String → Except CallFailure α) (judge : α → α → Comparison) (names : List String) :
    Except CallFailure (List Comparison) := do
  let expected ← reference
  names.mapM fun name => return judge (← named name) expected

/-- Compares implementations of the primitive that is named for a shape with the portable one. -/
def compare (place : Placement) (r : Registry) (shape : Shape) (names : List String) (points : Nat) :
    Except CallFailure (List Comparison) :=
  if fits shape points then
    match shape with
    | .sumOfPoly =>
      let named := fun name => r.sumWith name (sumInput place.input points) coefficients cutoff
      compareWith (named "generic") named .ofSums names
    | .deinterleave =>
      let named := fun name real imag =>
        r.splitWith name (splitOutput real points) (splitOutput imag points)
          (splitInput place.input points)
      compareWith (named "generic" place.referenceReal place.referenceImag)
        (named · place.real place.imag) .ofSplits names
  else .error .tooLarge

def report (r : Registry) (workload : Workload)
    (tests : List (String × List (Implementation × Nat × Comparison))) : Report where
  machine := r.machine.name
  capabilities := r.detected.names
  alignment := r.alignment
  workload
  tests := tests.map fun (name, runs) =>
    PrimitiveReport.of name (runs.map fun (i, elapsed, c) =>
      (i.name, Timing.of i elapsed workload.iterations c))

/-- The runs of one bound primitive; `elapsed` gives their nanoseconds. -/
def runs (place : String → Placement) (r : Registry) (workload : Workload)
    (elapsed : String → String → Nat) (bound : String × Binding) :
    Except CallFailure (String × List (Implementation × Nat × Comparison)) := do
  let (name, binding) := bound
  let implementations ← Registry.refusing (r.eligible name)
  let found ← compare (place name) r binding.aligned.shape (implementations.map (·.name))
    workload.points
  return (name, (implementations.zip found).map fun (i, c) => (i, elapsed name i.name, c))

end Profile

/-- Profiles every implementation of a registry, each called once at least. Of every primitive
`place` gives the buffers, and `elapsed` the nanoseconds that all calls of an implementation take. -/
def Registry.profileAt (place : String → Profile.Placement) (r : Registry) (workload : Workload)
    (elapsed : String → String → Nat) : Except CallFailure Report := do
  let workload := { workload with iterations := max workload.iterations 1 }
  let tests ← r.bindings.mapM (Profile.runs place r workload elapsed)
  return Profile.report r workload tests

/-- A profile on buffers at the start of memory. -/
def Registry.profile (r : Registry) (workload : Workload) (elapsed : String → String → Nat) :
    Except CallFailure Report :=
  r.profileAt (fun _ => .origin) workload elapsed

end SimdDispatch
