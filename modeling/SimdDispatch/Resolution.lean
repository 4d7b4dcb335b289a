import SimdDispatch.Config
import SimdDispatch.Event
import SimdDispatch.Machines

/-!
Resolution: from a set of capabilities and a configuration to a machine table and, for every
primitive, one implementation for each calling contract. It only describes; nothing is run.
-/
namespace SimdDispatch

structure Binding where
  aligned : Implementation
  unaligned : Implementation
deriving DecidableEq

def Binding.for (b : Binding) : Contract → Implementation
  | .aligned => b.aligned
  | .unaligned => b.unaligned

def Preference.for (p : Preference) : Contract → Option String
  | .aligned => p.aligned
  | .unaligned => p.unaligned

structure Resolution where
  table : Table
  /-- The capabilities that the configuration left. -/
  detected : CapabilitySet
  /-- By primitive, in the order of the table. -/
  bindings : List (String × Binding)
deriving DecidableEq

namespace Resolution

/-- The capabilities that a configuration leaves of those given; the portable one is always there. -/
def effective (detected : CapabilitySet) (config : Config) : Traced CapabilitySet := do
  let detected := detected ∪ .generic
  if config.forceGeneric then
    Traced.log .forcedGeneric
    return .generic
  let disabled ← Traced.lift config.disabledSet
  let masked := detected ∩ disabled
  if !masked.isEmpty then Traced.log (.capabilitiesDisabled masked)
  return detected \ disabled

def chooseTable (tables : List Table) (effective : CapabilitySet) (config : Config) :
    Except Error Table :=
  match config.machine with
  | some name => do
    let table ← Machines.find tables (Text.trim name)
    if table.runsOn effective then return table
    throw (.unsupported table.name (table.mask \ effective))
  | none =>
    match Machines.select tables effective with
    | some table => .ok table
    | none => .error (.noRunnableTable effective)

/-- Takes note of a preference that a slot cannot honour; one that no machine has is an error. -/
def passOver (table : Table) (p : Primitive) (contract : Contract) (name : String) : Traced Unit :=
  if (p.find? name).isSome then Traced.log (.preferenceIneligible p.name name contract)
  else if Catalog.declares p.name name then Traced.log (.preferenceUnavailable p.name name table.name)
  else Traced.lift (.error (.unknownImplementation p.name name))

def firstEligible (table : Table) (p : Primitive) (effective : CapabilitySet) (contract : Contract) :
    Except Error Implementation :=
  match p.resolve effective (table.boundary contract) with
  | some i => .ok i
  | none => .error (.invalidTable table.name (.noEligible p.name))

/-- The implementation for one slot: the preferred one where it is eligible, else the first that is. -/
def bindSlot (table : Table) (p : Primitive) (effective : CapabilitySet) (contract : Contract)
    (preferred : Option String) : Traced Implementation :=
  match preferred with
  | none => Traced.lift (firstEligible table p effective contract)
  | some name =>
    match (p.find? name).filter (·.isEligible effective (table.boundary contract)) with
    | some i => pure i
    | none => do
      passOver table p contract name
      Traced.lift (firstEligible table p effective contract)

def bindPrimitive (table : Table) (effective : CapabilitySet) (config : Config) (p : Primitive) :
    Traced (String × Binding) := do
  let preference := (config.overrides.get? p.name).getD {}
  let aligned ← bindSlot table p effective .aligned preference.aligned
  let unaligned ← bindSlot table p effective .unaligned preference.unaligned
  Traced.log (.primitiveBound p.name aligned.name unaligned.name)
  return (p.name, ⟨aligned, unaligned⟩)

/-- Every override is for a primitive of the table; the first other one is an error. -/
def checkOverrides (table : Table) (config : Config) : Except Error Unit :=
  config.overrides.keys.forM fun primitive =>
    if (table.find? primitive).isSome then .ok () else .error (.unknownPrimitive primitive)

def new (tables : List Table) (detected : CapabilitySet) (config : Config) : Traced Resolution := do
  Traced.lift config.validate
  Traced.lift (Machines.validate tables)
  let effective ← effective detected config
  let table ← Traced.lift (chooseTable tables effective config)
  Traced.log (.tableSelected table.name effective table.alignment)
  Traced.lift (checkOverrides table config)
  let bindings ← table.primitives.mapM (bindPrimitive table effective config)
  return ⟨table, effective, bindings⟩

def withMask (detected : CapabilitySet) (config : Config) : Traced Resolution :=
  new Machines.builtin detected config

def alignment (r : Resolution) : Nat := r.table.alignment

def binding (r : Resolution) (primitive : String) : Except Error Binding :=
  match r.bindings.lookup primitive with
  | some b => .ok b
  | none => .error (.unknownPrimitive primitive)

end Resolution
end SimdDispatch
