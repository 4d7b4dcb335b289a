import SimdDispatch.Config

/-!
Reports of profiling: the measurements of every implementation of every primitive of a machine, and
the fastest ones for both contracts. A report can be turned into a configuration that pins its
machine and prefers its fastest implementations.
-/
namespace SimdDispatch

structure Workload where
  /-- The length of the input of a call. -/
  points : Nat
  iterations : Nat
deriving DecidableEq

def Workload.default : Workload := ⟨131071, 1000⟩

structure Timing where
  totalMs : Float
  /-- Mean nanoseconds of a call. -/
  perCallNs : Float
  alignment : Nat
  /-- The largest relative deviation from the portable result. -/
  maxRelError : Float
  passed : Bool

structure PrimitiveReport where
  name : String
  /-- By the names of the implementations, in priority order. -/
  results : List (String × Timing)
  bestAligned : String
  /-- The fastest implementation for any address. -/
  bestUnaligned : String

/-- The time of the portable implementation divided by that of the best one. -/
def PrimitiveReport.speedup (p : PrimitiveReport) : Option Float := do
  let generic ← p.results.lookup "generic"
  let best ← p.results.lookup p.bestAligned
  if best.perCallNs > 0 then return generic.perCallNs / best.perCallNs
  failure

structure Report where
  machine : String
  capabilities : List String
  alignment : Nat
  workload : Workload
  tests : List PrimitiveReport

/-- The configuration that pins the machine and prefers the best implementations. -/
def Report.toConfig (r : Report) : Config where
  machine := some r.machine
  overrides := .ofList (r.tests.map fun t => (t.name, ⟨some t.bestAligned, some t.bestUnaligned⟩))

end SimdDispatch
