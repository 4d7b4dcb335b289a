import SimdDispatch.Resolution

/-!
Registries: resolutions that can be called. A registry never sees more capabilities than its
processor has, and holds the kernels bound to the four slots of the two built-in primitives.
-/
namespace SimdDispatch

structure Slots (κ : Type) where
  aligned : κ
  unaligned : κ
deriving DecidableEq

def Slots.for {κ : Type} (s : Slots κ) : Contract → κ
  | .aligned => s.aligned
  | .unaligned => s.unaligned

structure Registry where
  resolution : Resolution
  sumOfPoly : Slots SumOfPoly.Variant
  deinterleave : Slots Deinterleave.Variant

namespace Registry

/-- The kernels of the primitive named for a shape, which must have that shape. -/
def slots {κ : Type} (r : Resolution) (shape : Shape) (variant? : Implementation → Option κ) :
    Except Error (Slots κ) :=
  match r.bindings.lookup shape.name with
  | none => .error (.invalidTable r.table.name (.missingPrimitive shape.name))
  | some b =>
    match variant? b.aligned, variant? b.unaligned with
    | some aligned, some unaligned => .ok ⟨aligned, unaligned⟩
    | _, _ => .error (.invalidTable r.table.name (.wrongShape shape.name))

/-- The registry for the processor `cpu`; of `requested`, only what it has is used. -/
def new (cpu : CapabilitySet) (tables : List Table) (requested : CapabilitySet) (config : Config) :
    Traced Registry := do
  let absent := requested \ cpu
  if !absent.isEmpty then Traced.log (.capabilitiesAbsent absent)
  let resolution ← Resolution.new tables (requested ∩ cpu) config
  let sumOfPoly ← Traced.lift (slots resolution .sumOfPoly Implementation.sumOfPoly?)
  let deinterleave ← Traced.lift (slots resolution .deinterleave Implementation.deinterleave?)
  return ⟨resolution, sumOfPoly, deinterleave⟩

def withMask (cpu requested : CapabilitySet) (config : Config) : Traced Registry :=
  new cpu Machines.builtin requested config

def withConfig (cpu : CapabilitySet) (config : Config) : Traced Registry := withMask cpu cpu config

def machine (r : Registry) : Table := r.resolution.table

def detected (r : Registry) : CapabilitySet := r.resolution.detected

def alignment (r : Registry) : Nat := r.resolution.alignment

def bindings (r : Registry) : List (String × Binding) := r.resolution.bindings

def isAligned (r : Registry) (address : Nat) : Bool := SimdDispatch.isAligned address r.alignment

def implementation (r : Registry) (primitive name : String) : Except Error Implementation := do
  let p ← r.machine.primitive primitive
  match p.find? name with
  | some i => return i
  | none => throw (.unknownImplementation primitive name)

/-- Every implementation of a primitive that the machine has, in priority order. -/
def eligible (r : Registry) (primitive : String) : Except Error (List Implementation) :=
  (·.implementations) <$> r.machine.primitive primitive

end Registry
end SimdDispatch
