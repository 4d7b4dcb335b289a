import SimdDispatch.Catalog
import SimdDispatch.Contract

/-!
Machine tables: one combination of capabilities and, for every primitive, the implementations that
it can run. A table exists only if it passed its checks, and keeps the proof.
-/
namespace SimdDispatch
namespace Table

/-- What is wrong with one primitive of a table, `earlier` being the primitives before it. -/
def primitiveFault? (mask : CapabilitySet) (earlier : List String) (p : Primitive) :
    Option TableFault :=
  p.fault?.map (.primitive p.name) <|>
    (p.implementations.find? (! ·.required ⊆ mask)).map
      (fun i => .beyondMask i.name p.name (i.required \ mask)) <|>
    if p.name ∈ earlier then some (.declaredTwice p.name) else none

def primitivesFault? (mask : CapabilitySet) : List String → List Primitive → Option TableFault
  | _, [] => none
  | earlier, p :: rest =>
    primitiveFault? mask earlier p <|> primitivesFault? mask (p.name :: earlier) rest

/-- The first reason to refuse a table. -/
def fault? (mask : CapabilitySet) (alignment : Nat) (primitives : List Primitive) :
    Option TableFault :=
  if !(isPowerOfTwo alignment && alignment ≤ maxAlignment) then some (.alignment alignment)
  else if .generic ∉ mask then some .lacksGeneric
  else if !mask.unknown.isEmpty then some (.unknownBits mask.unknown)
  else primitivesFault? mask [] primitives

end Table

structure Table where
  name : String
  /-- The capabilities that the table assumes. -/
  mask : CapabilitySet
  /-- The boundary, in bytes, that aligned calls guarantee on this machine. -/
  alignment : Nat
  /-- In declaration order. -/
  primitives : List Primitive
  accepted : Table.fault? mask alignment primitives = none
deriving DecidableEq

namespace Table

def new (name : String) (mask : CapabilitySet) (alignment : Nat) (primitives : List Primitive) :
    Except Error Table :=
  match h : fault? mask alignment primitives with
  | none => .ok ⟨name, mask, alignment, primitives, h⟩
  | some fault => .error (.invalidTable name fault)

def ofCatalog (name : String) (mask : CapabilitySet) (alignment : Nat) : Except Error Table :=
  new name mask alignment (Catalog.all.map (·.filtered mask))

def runsOn (t : Table) (detected : CapabilitySet) : Bool := t.mask ⊆ detected

def find? (t : Table) (primitive : String) : Option Primitive :=
  t.primitives.find? (·.name == primitive)

def primitive (t : Table) (name : String) : Except Error Primitive :=
  match t.find? name with
  | some p => .ok p
  | none => .error (.unknownPrimitive name)

/-- The boundary that a call guarantees: that of the table, or none. -/
def boundary (t : Table) : Contract → Nat
  | .aligned => t.alignment
  | .unaligned => 1

end Table
end SimdDispatch
