/-!
Runs of four-byte lanes in memory and the accesses of vector instructions to them. An access that
leaves its run, or does not start on its boundary, fails.
-/
namespace SimdDispatch

inductive AccessFault where
  | outOfRange
  | misaligned
deriving DecidableEq

structure Slice (α : Type) where
  address : Nat
  elements : Array α

structure Complex (α : Type) where
  re : α
  im : α
deriving DecidableEq

def laneBytes : Nat := 4

namespace Slice

variable {α : Type}

def size (s : Slice α) : Nat := s.elements.size

/-- The lanes of complex samples in the order in which they lie in memory. -/
def lanes (s : Slice (Complex α)) : Slice α :=
  ⟨s.address, s.elements.flatMap fun z => #[z.re, z.im]⟩

/-- The lanes from `offset` on, read by one instruction whose address is on `boundary`. -/
@[inline] def load (s : Slice α) (boundary width offset : Nat) : Except AccessFault (Vector α width) :=
  if (s.address + laneBytes * offset) % boundary ≠ 0 then .error .misaligned
  else if h : offset + width ≤ s.elements.size then
    .ok (Vector.ofFn fun i => s.elements[offset + i.val])
  else .error .outOfRange

/-- The elements from `offset` on replaced one after the other, as far as the run reaches. -/
def overwrite (s : Slice α) (offset : Nat) (xs : List α) : Slice α :=
  { s with elements := (xs.zipIdx offset).foldl (fun es (x, i) => es.setIfInBounds i x) s.elements }

def write {width : Nat} (s : Slice α) (offset : Nat) (v : Vector α width) : Slice α :=
  s.overwrite offset v.toList

/-- A vector stored from `offset` on by one instruction whose address is on `boundary`. -/
def store {width : Nat} (s : Slice α) (boundary offset : Nat) (v : Vector α width) :
    Except AccessFault (Slice α) :=
  if (s.address + laneBytes * offset) % boundary ≠ 0 then .error .misaligned
  else if offset + width ≤ s.size then .ok (s.write offset v)
  else .error .outOfRange

end Slice
end SimdDispatch
