import SimdDispatch.Buffer
import SimdDispatch.Call
import SimdDispatch.Config.Sources

/-!
The registry that a whole process shares. It is kept in a cell that is set once, either by the first
use or by an explicit attempt. An attempt is three steps, and other callers may act between them.
-/
namespace SimdDispatch

namespace SharedRegistry

abbrev Cell := Option Registry

variable {ε : Type}

/-- One atomic step: what the cell holds, or what `make` gives, which is then put there. Also says
whether it was put there; where `make` fails the cell stays empty. -/
def getOrInit (make : Except ε Registry) (cell : Cell) : Except ε (Registry × Bool) × Cell :=
  match cell, make with
  | some r, _ => (.ok (r, false), some r)
  | none, .ok r => (.ok (r, true), some r)
  | none, .error e => (.error e, none)

/-- The shared registry; the first use builds it as `make` says. -/
def get (make : Except ε Registry) (cell : Cell) : Except ε Registry × Cell :=
  let (found, cell) := getOrInit make cell
  ((·.1) <$> found, cell)

/-- An attempt to set the cell to a registry of one's own, by what is still to be done. -/
inductive Attempt where
  | checking
  | building
  | installing (fresh : Registry)
  | finished (outcome : Except Error Registry)

namespace Attempt

/-- The next step of an attempt that builds its registry as `make` says. -/
def step (make : Except Error Registry) (a : Attempt) (cell : Cell) : Attempt × Cell :=
  match a with
  | checking => (if cell.isSome then finished (.error .alreadyInitialized) else building, cell)
  | building => match make with
    | .ok r => (installing r, cell)
    | .error e => (finished (.error e), cell)
  | installing fresh => match getOrInit (.ok fresh : Except Error Registry) cell with
    | (.ok (r, true), cell) => (finished (.ok r), cell)
    | (_, cell) => (finished (.error .alreadyInitialized), cell)
  | finished outcome => (finished outcome, cell)

def outcome? : Attempt → Option (Except Error Registry)
  | finished outcome => some outcome
  | _ => none

end Attempt

/-- An attempt that no other caller comes between. -/
def tryInit (make : Except Error Registry) (cell : Cell) : Except Error Registry × Cell :=
  let (a, cell) := Attempt.checking.step make cell
  let (a, cell) := a.step make cell
  let (a, cell) := a.step make cell
  (a.outcome?.getD (.error .alreadyInitialized), cell)

def initial (cpu : CapabilitySet) (s : Surroundings) : Except LoadFailure Registry := do
  (Registry.withConfig cpu (← Config.load s)).outcome.mapError .refused

/-- What a process says when the first use cannot build a registry, if it says anything. -/
def failureMessage (e : LoadFailure) : Option String :=
  e.message.map fun reason => s!"lanekit: dispatch initialization failed: {reason}"

end SharedRegistry

namespace Registry

def warmupLength : Nat := 256

def warmUp (r : Registry) : Except CallFailure Unit := do
  let samples := List.replicate warmupLength (Single.ofDouble 0.01)
  let complex := List.replicate warmupLength
    (⟨.ofDouble 0.01, .ofDouble (-0.01)⟩ : Complex Single)
  let input : Slice Single := ⟨0, (Buffer.ofList samples).toArray⟩
  let pairs : Slice (Complex Single) := ⟨0, (Buffer.ofList complex).toArray⟩
  let output : Slice Single := ⟨0, (Buffer.zeroed warmupLength : Buffer Single).toArray⟩
  let c : Coefficients Single :=
    ⟨.ofDouble 1, .ofDouble 0.5, .ofDouble 0.25, .ofDouble 0.125, 0⟩
  for contract in [Contract.unaligned, Contract.aligned] do
    discard (r.sum contract input c (.ofDouble (-1)))
    discard (r.split contract output output pairs)

end Registry
end SimdDispatch
