import SimdDispatch.Contract
import SimdDispatch.Error

/-!
The log of a resolution, and computations that write it. A failed computation keeps the events
written before it failed.
-/
namespace SimdDispatch

inductive Level where
  | debug | info | warn
deriving DecidableEq

def Level.name : Level → String
  | debug => "DEBUG"
  | info => "INFO"
  | warn => "WARN"

inductive Event where
  | forcedGeneric
  | capabilitiesDisabled (capabilities : CapabilitySet)
  | capabilitiesAbsent (capabilities : CapabilitySet)
  | tableSelected (machine : String) (capabilities : CapabilitySet) (alignment : Nat)
  /-- The machine has the preferred implementation, but the slot cannot take it. -/
  | preferenceIneligible (primitive implementation : String) (contract : Contract)
  /-- The preferred implementation exists, but not on the machine. -/
  | preferenceUnavailable (primitive implementation machine : String)
  | primitiveBound (primitive aligned unaligned : String)
deriving DecidableEq

namespace Event

def level : Event → Level
  | forcedGeneric | tableSelected .. => .info
  | capabilitiesDisabled _ | capabilitiesAbsent _ => .warn
  | preferenceIneligible .. | preferenceUnavailable .. => .warn
  | primitiveBound .. => .debug

def message : Event → String
  | forcedGeneric => "Generic implementations forced by configuration"
  | capabilitiesDisabled _ => "Capabilities disabled by configuration"
  | capabilitiesAbsent _ => "Capabilities not present on this CPU ignored"
  | tableSelected .. => "Machine table selected"
  | preferenceIneligible .. => "Preferred implementation not eligible, using normal resolution"
  | preferenceUnavailable .. =>
    "Preferred implementation not available on this machine, using normal resolution"
  | primitiveBound .. => "Primitive bound"

/-- The fields of an event and their texts, in the order in which they are logged. -/
def fields : Event → List (String × String)
  | forcedGeneric => []
  | capabilitiesDisabled s | capabilitiesAbsent s => [("capabilities", s.text)]
  | tableSelected m s a => [("machine", m), ("capabilities", s.text), ("alignment", toString a)]
  | preferenceIneligible p i c => [("primitive", p), ("implementation", i), ("contract", c.label)]
  | preferenceUnavailable p i m => [("primitive", p), ("implementation", i), ("machine", m)]
  | primitiveBound p a u => [("primitive", p), ("aligned", a), ("unaligned", u)]

end Event

/-- The events of a computation and what came of it. -/
structure Traced (α : Type) where
  events : List Event
  outcome : Except Error α

namespace Traced

variable {α β : Type}

/-- Runs on from a success; the events come after those before it. -/
def andThen (x : Traced α) (f : α → Traced β) : Traced β :=
  match x.outcome with
  | .ok a => let y := f a; ⟨x.events ++ y.events, y.outcome⟩
  | .error e => ⟨x.events, .error e⟩

instance : Monad Traced where
  pure a := ⟨[], .ok a⟩
  bind := andThen

def log (e : Event) : Traced Unit := ⟨[e], .ok ()⟩

def lift (outcome : Except Error α) : Traced α := ⟨[], outcome⟩

end Traced
end SimdDispatch
