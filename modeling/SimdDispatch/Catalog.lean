import SimdDispatch.Primitive

/-!
The built-in primitives with every implementation there is, in priority order.
-/
namespace SimdDispatch.Catalog

def avx : CapabilitySet := .only .avx

def avxFma : CapabilitySet := .ofList [.avx, .fma]

def sumOfPoly : Primitive where
  name := Shape.sumOfPoly.name
  shape := .sumOfPoly
  implementations := [
    ⟨"a_avx_fma", avxFma, 32, .sumOfPoly (.eightLanesFused true), by decide⟩,
    ⟨"u_avx_fma", avxFma, 1, .sumOfPoly (.eightLanesFused false), by decide⟩,
    ⟨"a_avx", avx, 32, .sumOfPoly (.eightLanes true), by decide⟩,
    ⟨"u_avx", avx, 1, .sumOfPoly (.eightLanes false), by decide⟩,
    ⟨"a_sse3", .only .sse3, 16, .sumOfPoly .fourLanes, by decide⟩,
    ⟨"generic", .generic, 1, .sumOfPoly .scalar, by decide⟩]

def deinterleave : Primitive where
  name := Shape.deinterleave.name
  shape := .deinterleave
  implementations := [
    ⟨"a_avx", avx, 32, .deinterleave (.eightLanes true), by decide⟩,
    ⟨"u_avx", avx, 1, .deinterleave (.eightLanes false), by decide⟩,
    ⟨"a_sse", .only .sse, 16, .deinterleave .fourLanes, by decide⟩,
    ⟨"generic", .generic, 1, .deinterleave .scalar, by decide⟩]

def all : List Primitive := [sumOfPoly, deinterleave]

def find? (name : String) : Option Primitive := all.find? (·.name == name)

/-- Whether some machine may have the implementation `name` of `primitive`. -/
def declares (primitive name : String) : Bool :=
  match find? primitive with
  | some p => (p.find? name).isSome
  | none => false

end SimdDispatch.Catalog
