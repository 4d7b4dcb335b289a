import SimdDispatch.CapabilitySet
import SimdDispatch.FileTree
import SimdDispatch.Kernel.Shape

/-!
What can go wrong while tables are built, configurations read and registries resolved. Each error
is a cause; the wording of all of them is in the three functions named `message`.
-/
namespace SimdDispatch

inductive PrimitiveFault where
  | empty
  | duplicate (implementation : String)
  | shape (implementation : String) (found expected : Shape)
  | unknownBits (implementation : String) (bits : CapabilitySet)
  | alignment (implementation : String) (bytes : Nat)
  | notGeneric (implementation : String)
deriving DecidableEq

inductive TableFault where
  | alignment (bytes : Nat)
  | lacksGeneric
  | unknownBits (bits : CapabilitySet)
  | primitive (name : String) (fault : PrimitiveFault)
  | beyondMask (implementation primitive : String) (excess : CapabilitySet)
  | declaredTwice (primitive : String)
  | duplicateMachine
  | noEligible (primitive : String)
  | missingPrimitive (primitive : String)
  | wrongShape (primitive : String)
deriving DecidableEq

inductive Error where
  | genericDisabled
  | emptyMachineName
  | noGenericTable
  | noRunnableTable (available : CapabilitySet)
  | fileNotFound (path : String)
  /-- A document or variable that is malformed, or of the wrong type for its setting. -/
  | unreadable
  | unknownCapability (name : String)
  | unknownMachine (name : String)
  | unknownPrimitive (name : String)
  | unknownImplementation (primitive name : String)
  | invalidTable (machine : String) (fault : TableFault)
  | unsupported (machine : String) (missing : CapabilitySet)
  | misaligned (implementation : String) (alignment : Nat)
  | alreadyInitialized
  | unwritable (fault : FileFault)
  /-- A report or coefficient text that is malformed or of the wrong type. -/
  | malformedReport
deriving DecidableEq

/-- The largest boundary a machine table may guarantee, in bytes. -/
def maxAlignment : Nat := 64

def PrimitiveFault.message : PrimitiveFault → String
  | empty => "no implementations"
  | duplicate i => s!"duplicate implementation '{i}'"
  | shape i found expected =>
    s!"implementation '{i}' has shape {found.label}, expected {expected.label}"
  | unknownBits i s =>
    s!"implementation '{i}' requires unknown capability bits {Text.hexadecimal s.bits.toNat}"
  | alignment i n => s!"implementation '{i}' has alignment {n} (not a power of two)"
  | notGeneric i => s!"last implementation '{i}' is not a generic fallback"

def TableFault.message : TableFault → String
  | alignment n => s!"alignment guarantee {n} is not a power of two up to {maxAlignment}"
  | lacksGeneric => "capability mask lacks generic"
  | unknownBits s => s!"capability mask has unknown bits {Text.hexadecimal s.bits.toNat}"
  | primitive p f => s!"primitive '{p}': {f.message}"
  | beyondMask i p excess =>
    s!"implementation '{i}' of '{p}' requires {excess.text} beyond the table mask"
  | declaredTwice p => s!"primitive '{p}' declared twice"
  | duplicateMachine => "duplicate machine name"
  | noEligible p => s!"no eligible implementation of '{p}'"
  | missingPrimitive p => s!"missing primitive '{p}'"
  | wrongShape p => s!"primitive '{p}' has the wrong shape"

def Error.message : Error → String
  | genericDisabled => "Configuration error: the generic capability cannot be disabled"
  | emptyMachineName => "Configuration error: machine name is empty"
  | noGenericTable => "Configuration error: machine list has no generic table"
  | noRunnableTable s => s!"Configuration error: no machine table runs on [{s.text}]"
  | fileNotFound path => s!"Configuration error: configuration file '{path}' not found"
  | unreadable => "Configuration load error"
  | unknownCapability n => s!"Unknown capability: {n}"
  | unknownMachine n => s!"Unknown machine: {n}"
  | unknownPrimitive n => s!"Unknown primitive: {n}"
  | unknownImplementation p n => s!"Unknown implementation '{n}' for primitive '{p}'"
  | invalidTable m f => s!"Invalid machine table '{m}': {f.message}"
  | unsupported m missing =>
    s!"Machine '{m}' is not supported by this CPU (missing: {missing.text})"
  | misaligned n a => s!"Implementation '{n}' requires {a}-byte aligned buffers"
  | alreadyInitialized => "Dispatch registry is already initialized"
  | unwritable fault => s!"IO error: {fault.message}"
  | malformedReport => "JSON error"

/-- The capability that a name stands for. The error has the name as it was given. -/
def Capability.ofName (name : String) : Except Error Capability :=
  match ofName? name with
  | some c => .ok c
  | none => .error (.unknownCapability name)

/-- The capabilities that the names stand for; the first unreadable name is the error. -/
def CapabilitySet.ofNames (names : List String) : Except Error CapabilitySet :=
  names.foldlM (fun s name => return s ∪ only (← Capability.ofName name)) ∅

end SimdDispatch
