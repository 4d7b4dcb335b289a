import SimdDispatch.Error
import SimdDispatch.Json.Decode
import SimdDispatch.Kernel.SumOfPoly

/-!
Polynomial coefficients as JSON records.
-/
namespace SimdDispatch.Coefficients

def fieldNames : List String := ["c1", "c2", "c3", "c4", "c0"]

def toList {α : Type} (c : Coefficients α) : List α := [c.c1, c.c2, c.c3, c.c4, c.c0]

def ofList? {α : Type} : List α → Option (Coefficients α)
  | [c1, c2, c3, c4, c0] => some ⟨c1, c2, c3, c4, c0⟩
  | _ => none

def toJson (c : Coefficients Single) : Json :=
  .ofFields (fieldNames.zip (c.toList.map Json.ofSingle))

def ofJson? (j : Json) : Option (Coefficients Single) := do
  ofList? (← (← j.record? fieldNames).mapM Json.single?)

def read (document : String) : Except Error (Coefficients Single) :=
  match Json.read document >>= ofJson? with
  | some c => .ok c
  | none => .error .malformedReport

end SimdDispatch.Coefficients
