import SimdDispatch.Decimal.Layout
import SimdDispatch.Registry
import SimdDispatch.Text.Quoted

/-!
Descriptions of values for people who inspect them: records with named fields, lists in brackets,
sets and maps in braces, texts in quotes, numbers in their shortest form.
-/
namespace SimdDispatch

namespace Describe

/-- Numbers are positional from a ten-thousandth to below ten to the sixteenth. -/
def numbers : Decimal.Layout where
  plainFrom := -4
  plainBelow := 16
  plus := false
  tie := .up
  nan := "NaN"
  infinity := "inf"
  negativeInfinity := "-inf"

def list (items : List String) : String := "[" ++ Text.joinWith ", " items ++ "]"

def braces (items : List String) : String := "\x7b" ++ Text.joinWith ", " items ++ "\x7d"

def entries (items : List (String × String)) : String :=
  braces (items.map fun (k, v) => Text.quoted k ++ ": " ++ v)

def record (name : String) (fields : List (String × String)) : String :=
  name ++ " \x7b " ++ Text.joinWith ", " (fields.map fun (f, v) => f ++ ": " ++ v) ++ " \x7d"

end Describe

open Describe

def Single.describe (x : Single) : String := numbers.single x

def Complex.describe (z : Complex Single) : String :=
  record "Complex" [("re", z.re.describe), ("im", z.im.describe)]

def Coefficients.describe (c : Coefficients Single) : String :=
  record "PolyCoefficients" [("c1", c.c1.describe), ("c2", c.c2.describe), ("c3", c.c3.describe),
    ("c4", c.c4.describe), ("c0", c.c0.describe)]

namespace CapabilitySet

/-- The bits that stand for no capability, after a plus sign. -/
def describeUnknown (s : CapabilitySet) : String :=
  if s.unknown.isEmpty then "" else "+" ++ Text.hexadecimal s.unknown.bits.toNat

def describe (s : CapabilitySet) : String :=
  braces (s.toList.map Capability.label) ++ s.describeUnknown

def describeLines (s : CapabilitySet) : String :=
  (if s.toList.isEmpty then braces [] else
    "\x7b\n" ++ String.join (s.toList.map fun c => "    " ++ c.label ++ ",\n") ++ "\x7d") ++
  s.describeUnknown

end CapabilitySet

def Implementation.describe (i : Implementation) : String :=
  record "ImplDescriptor" [("name", Text.quoted i.name), ("required", i.required.describe),
    ("alignment", toString i.alignment), ("kernel", "Kernel::" ++ i.shape.label)]

def Primitive.describe (p : Primitive) : String :=
  record "PrimitiveDescriptor" [("name", Text.quoted p.name), ("shape", p.shape.label),
    ("impls", list (p.implementations.map Implementation.describe))]

def Table.describe (t : Table) : String :=
  record "MachineTable" [("name", Text.quoted t.name), ("capability_mask", t.mask.describe),
    ("alignment", toString t.alignment),
    ("primitives", entries (t.primitives.map fun p => (p.name, p.describe)))]

def Binding.describe (b : Binding) : String :=
  record "PrimitiveBinding" [("aligned", b.aligned.describe), ("unaligned", b.unaligned.describe)]

def Resolution.describeBindings (r : Resolution) : String :=
  entries (r.bindings.map fun (p, b) => (p, b.describe))

def Resolution.describe (r : Resolution) : String :=
  record "Resolution" [("table", r.table.describe), ("detected", r.detected.describe),
    ("bindings", r.describeBindings)]

def Registry.describe (r : Registry) : String :=
  record "Registry" [("machine", Text.quoted r.machine.name), ("detected", r.detected.describe),
    ("alignment", toString r.alignment), ("bindings", r.resolution.describeBindings)]

end SimdDispatch
