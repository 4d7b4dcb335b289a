import SimdDispatch.CapabilitySet

/-!
The capabilities of a processor by the names that its operating system lists them under. One that
is not listed is taken to be absent; the portable one is always there.
-/
namespace SimdDispatch.Processor

/-- The name that a capability is listed under, for those that are listed. -/
def flag? : Capability → Option String
  | .generic | .neon => none
  | .sse => some "sse"
  | .sse2 => some "sse2"
  | .sse3 => some "pni"
  | .ssse3 => some "ssse3"
  | .sse41 => some "sse4_1"
  | .avx => some "avx"
  | .avx2 => some "avx2"
  | .fma => some "fma"
  | .avx512f => some "avx512f"

def ofFlags (flags : List String) : CapabilitySet :=
  .ofList (.generic :: Capability.all.filter fun c => (flag? c).any (· ∈ flags))

/-- The names on the first line of a description of processors that lists them. -/
def flagsOf (description : String) : List String :=
  match (description.splitOn "\n").find? (·.startsWith "flags") with
  | some line => line.splitOn " "
  | none => []

def detect (description : String) : CapabilitySet := ofFlags (flagsOf description)

end SimdDispatch.Processor
