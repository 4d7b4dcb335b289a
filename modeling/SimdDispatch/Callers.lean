import Mathlib.Logic.Function.Basic
import SimdDispatch.SharedRegistry

/-!
Callers of the shared registry side by side. A caller takes one atomic step at a time, a schedule
says whose turn it is, and who is done stays as it is.
-/
namespace SimdDispatch.SharedRegistry

inductive Request where
  /-- For the registry, whoever set it. -/
  | use (surroundings : Surroundings)
  /-- To set the registry by a configuration. -/
  | install (config : Config)

/-- A caller by what it asked for and how far it is. A user whose outcome is an error panicked. -/
inductive Caller where
  | user (surroundings : Surroundings) (outcome : Option (Except LoadFailure Registry))
  | installer (config : Config) (attempt : Attempt)

namespace Caller

def start : Request → Caller
  | .use s => .user s none
  | .install c => .installer c .checking

def request : Caller → Request
  | .user s _ => .use s
  | .installer c _ => .install c

/-- The next step of a caller on the processor `cpu`. -/
def step (cpu : CapabilitySet) : Caller → Cell → Caller × Cell
  | .user s none, cell =>
    let (outcome, cell) := get (initial cpu s) cell
    (.user s (some outcome), cell)
  | .user s (some outcome), cell => (.user s (some outcome), cell)
  | .installer c a, cell =>
    let (a, cell) := a.step (Registry.withConfig cpu c).outcome cell
    (.installer c a, cell)

end Caller

structure World (ι : Type) where
  cell : Cell
  callers : ι → Caller

namespace World

variable {ι : Type} [DecidableEq ι]

/-- Nobody has taken a step. -/
def start (requests : ι → Request) : World ι := ⟨none, fun i => .start (requests i)⟩

def step (cpu : CapabilitySet) (w : World ι) (i : ι) : World ι :=
  let (caller, cell) := (w.callers i).step cpu w.cell
  ⟨cell, Function.update w.callers i caller⟩

def run (cpu : CapabilitySet) (w : World ι) (schedule : List ι) : World ι :=
  schedule.foldl (step cpu) w

end World
end SimdDispatch.SharedRegistry
