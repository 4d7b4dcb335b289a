import SimdDispatch.Table

/-!
Lists of machine tables: the built-in ones, the check of a list, and the choice of a table for a
processor. Among the tables that run, the one with most capabilities wins, and the first of equals.
-/
namespace SimdDispatch.Machines

def fromCatalog (name : String) (mask : CapabilitySet) (alignment : Nat)
    (accepted : Table.fault? mask alignment (Catalog.all.map (·.filtered mask)) = none) : Table :=
  ⟨name, mask, alignment, Catalog.all.map (·.filtered mask), accepted⟩

def builtin : List Table := [
  fromCatalog "avx_fma" (.ofList [.generic, .sse, .sse2, .sse3, .ssse3, .sse41, .avx, .fma]) 32
    (by decide),
  fromCatalog "avx" (.ofList [.generic, .sse, .sse2, .sse3, .ssse3, .sse41, .avx]) 32 (by decide),
  fromCatalog "sse3" (.ofList [.generic, .sse, .sse2, .sse3]) 16 (by decide),
  fromCatalog "sse" (.ofList [.generic, .sse, .sse2]) 16 (by decide),
  fromCatalog "generic" .generic 1 (by decide)]

def firstRepeated? : List String → List String → Option String
  | _, [] => none
  | earlier, n :: rest => if n ∈ earlier then some n else firstRepeated? (n :: earlier) rest

/-- Accepts a list whose names differ and which has a table for every processor. -/
def validate (tables : List Table) : Except Error Unit :=
  match firstRepeated? [] (tables.map (·.name)) with
  | some name => .error (.invalidTable name .duplicateMachine)
  | none => if tables.any (·.mask == .generic) then .ok () else .error .noGenericTable

def find (tables : List Table) (name : String) : Except Error Table :=
  match tables.find? (·.name == name) with
  | some t => .ok t
  | none => .error (.unknownMachine name)

/-- Keeps the better of a choice and the next table that runs; the earlier of equals stays. -/
def better (best : Option Table) (t : Table) : Option Table :=
  match best with
  | some b => if t.mask.card ≤ b.mask.card then some b else some t
  | none => some t

/-- The table to run on a processor with the capabilities `detected`. -/
def select (tables : List Table) (detected : CapabilitySet) : Option Table :=
  (tables.filter (·.runsOn detected)).foldl better none

end SimdDispatch.Machines
