import SimdDispatch.Text

/-!
Instruction-set extensions of a processor and the names they are written by. Reading a name
ignores ASCII case, the blanks around it, and the separators `.` and `_` wherever they stand.
-/
namespace SimdDispatch

inductive Capability where
  | generic | sse | sse2 | sse3 | ssse3 | sse41 | avx | avx2 | fma | avx512f | neon
deriving DecidableEq

namespace Capability

def all : List Capability := [generic, sse, sse2, sse3, ssse3, sse41, avx, avx2, fma, avx512f, neon]

def bit : Capability → Nat
  | generic => 0
  | sse => 1
  | sse2 => 2
  | sse3 => 3
  | ssse3 => 4
  | sse41 => 5
  | avx => 6
  | avx2 => 7
  | fma => 8
  | avx512f => 9
  | neon => 10

def name : Capability → String
  | generic => "generic"
  | sse => "sse"
  | sse2 => "sse2"
  | sse3 => "sse3"
  | ssse3 => "ssse3"
  | sse41 => "sse41"
  | avx => "avx"
  | avx2 => "avx2"
  | fma => "fma"
  | avx512f => "avx512f"
  | neon => "neon"

/-- The capitalised name used in descriptions of values. -/
def label : Capability → String
  | generic => "Generic"
  | sse => "Sse"
  | sse2 => "Sse2"
  | sse3 => "Sse3"
  | ssse3 => "Ssse3"
  | sse41 => "Sse41"
  | avx => "Avx"
  | avx2 => "Avx2"
  | fma => "Fma"
  | avx512f => "Avx512f"
  | neon => "Neon"

def isSeparator (c : Char) : Bool := c == '.' || c == '_'

/-- The letters of a spelling: trimmed first, then lowercase ASCII, then without separators. -/
def normalize (s : String) : List Char :=
  ((Text.trimWhile Text.isBlank s.toList).map Char.toLower).filter (!isSeparator ·)

def ofName? (s : String) : Option Capability := all.find? (·.name.toList == normalize s)

end Capability
end SimdDispatch
