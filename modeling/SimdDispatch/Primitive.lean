import SimdDispatch.Implementation

/-!
Numeric primitives: lists of implementations in priority order, the portable one last. A list is
checked before a machine table takes it; the first fault found is the one reported.
-/
namespace SimdDispatch

structure Primitive where
  name : String
  shape : Shape
  /-- Highest priority first. -/
  implementations : List Implementation
deriving DecidableEq

namespace Primitive

def find? (p : Primitive) (name : String) : Option Implementation :=
  p.implementations.find? (·.name == name)

def filtered (p : Primitive) (mask : CapabilitySet) : Primitive :=
  { p with implementations := p.implementations.filter (·.required ⊆ mask) }

/-- The first implementation eligible where `detected` is present and buffers start on `boundary`. -/
def resolve (p : Primitive) (detected : CapabilitySet) (boundary : Nat) : Option Implementation :=
  p.implementations.find? (·.isEligible detected boundary)

/-- What is wrong with one entry of a list of this shape, `earlier` being the names before it. -/
def entryFault? (shape : Shape) (earlier : List String) (i : Implementation) : Option PrimitiveFault :=
  if i.name ∈ earlier then some (.duplicate i.name)
  else if i.shape ≠ shape then some (.shape i.name i.shape shape)
  else if !i.required.unknown.isEmpty then some (.unknownBits i.name i.required.unknown)
  else if !isPowerOfTwo i.alignment then some (.alignment i.name i.alignment)
  else none

def entriesFault? (shape : Shape) : List String → List Implementation → Option PrimitiveFault
  | _, [] => none
  | earlier, i :: rest =>
    entryFault? shape earlier i <|> entriesFault? shape (i.name :: earlier) rest

/-- What is wrong with a primitive: it has no entries, a faulty entry, or no portable last entry. -/
def fault? (p : Primitive) : Option PrimitiveFault :=
  match p.implementations.getLast? with
  | none => some .empty
  | some last =>
    entriesFault? p.shape [] p.implementations <|>
      if last.isGeneric then none else some (.notGeneric last.name)

def validate (p : Primitive) (machine : String) : Except Error Unit :=
  match p.fault? with
  | none => .ok ()
  | some fault => .error (.invalidTable machine (.primitive p.name fault))

end Primitive
end SimdDispatch
