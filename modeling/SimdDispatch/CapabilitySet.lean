import SimdDispatch.Capability

/-!
Sets of capabilities as thirty-two bits, one for each capability. Bits that stand for no known
capability are kept, so that the validation of machine tables can report them.
-/
namespace SimdDispatch

structure CapabilitySet where
  bits : UInt32
deriving DecidableEq

namespace CapabilitySet

instance : EmptyCollection CapabilitySet := ⟨⟨0⟩⟩
instance : Union CapabilitySet := ⟨fun a b => ⟨a.bits ||| b.bits⟩⟩
instance : Inter CapabilitySet := ⟨fun a b => ⟨a.bits &&& b.bits⟩⟩
instance : SDiff CapabilitySet := ⟨fun a b => ⟨a.bits &&& ~~~b.bits⟩⟩

/-- A set is included in another when masking with the other leaves it unchanged. -/
instance : HasSubset CapabilitySet := ⟨fun a b => b.bits &&& a.bits = a.bits⟩

instance (a b : CapabilitySet) : Decidable (a ⊆ b) :=
  inferInstanceAs (Decidable (b.bits &&& a.bits = a.bits))

def only (c : Capability) : CapabilitySet := ⟨1 <<< UInt32.ofNat c.bit⟩

instance : Membership Capability CapabilitySet := ⟨fun s c => only c ⊆ s⟩

instance (c : Capability) (s : CapabilitySet) : Decidable (c ∈ s) :=
  inferInstanceAs (Decidable (only c ⊆ s))

def ofList (cs : List Capability) : CapabilitySet := cs.foldl (fun s c => s ∪ only c) ∅

def generic : CapabilitySet := only .generic

def known : CapabilitySet := ofList Capability.all

/-- The bits that stand for no capability. -/
def unknown (s : CapabilitySet) : CapabilitySet := s \ known

def isEmpty (s : CapabilitySet) : Bool := s == ∅

/-- How many bits are set. -/
def card (s : CapabilitySet) : Nat := (List.range 32).countP s.bits.toNat.testBit

/-- The known capabilities present, in bit order. -/
def toList (s : CapabilitySet) : List Capability := Capability.all.filter (· ∈ s)

def names (s : CapabilitySet) : List String := s.toList.map Capability.name

def text (s : CapabilitySet) : String := Text.joinWith " " s.names

end CapabilitySet
end SimdDispatch
