import SimdDispatch.Error
import SimdDispatch.SortedMap

/-!
The configuration of dispatch. It can take capabilities away, pin a machine table, and prefer
implementations by name; names of machines and implementations are checked against tables later.
-/
namespace SimdDispatch

structure Preference where
  aligned : Option String := none
  unaligned : Option String := none
deriving DecidableEq

structure Config where
  /-- Leave nothing but the portable capability. -/
  forceGeneric : Bool := false
  /-- Spellings of the capabilities to take away. -/
  disabled : List String := []
  /-- The machine table to use in place of the best one. -/
  machine : Option String := none
  overrides : SortedMap Preference := ∅
deriving DecidableEq

namespace Config

def disabledSet (c : Config) : Except Error CapabilitySet :=
  CapabilitySet.ofNames c.disabled

/-- Accepts what does not depend on tables: readable capabilities other than the portable one, and
a machine name that is not blank. -/
def validate (c : Config) : Except Error Unit := do
  if .generic ∈ (← c.disabledSet) then throw .genericDisabled
  match c.machine with
  | some name => if Text.trim name = "" then throw .emptyMachineName
  | none => pure ()

end Config
end SimdDispatch
