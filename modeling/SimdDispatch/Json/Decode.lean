import SimdDispatch.Json.Reader

/-!
Reading typed values out of JSON documents. A record is an object, in which unknown keys are passed
over and known ones stand once, or the list of its fields in their order.
-/
namespace SimdDispatch.Json

def flag? : Json → Option Bool
  | flag b => some b
  | _ => none

def string? : Json → Option String
  | text body => String.ofList <$> decode body
  | _ => none

def nat? : Json → Option Nat
  | number n => n.natural?
  | _ => none

def double? : Json → Option Float
  | number n => n.double?
  | _ => none

def single? : Json → Option Single
  | number n => n.single?
  | _ => none

def items? {α : Type} (item : Json → Option α) : Json → Option (List α)
  | list items => items.mapM item
  | _ => none

def keyed (fields : List (List Char × Json)) : Option (List (String × Json)) :=
  fields.mapM fun (body, value) => do
    let key ← decode body
    return (String.ofList key, value)

/-- An entry added at the end, or put in place of the one with its key. -/
def putLast {α : Type} (key : String) (value : α) : List (String × α) → List (String × α)
  | [] => [(key, value)]
  | (k, v) :: rest => if k = key then (key, value) :: rest else (k, v) :: putLast key value rest

/-- The entries of an object; a repeated key keeps its first place and takes its last value. -/
def entries? {α : Type} (value : Json → Option α) : Json → Option (List (String × α))
  | object fields => do
    let found ← (← keyed fields).mapM fun (key, j) => do return (key, ← value j)
    return found.foldl (fun es (key, a) => putLast key a es) []
  | _ => none

def only? (fields : List (String × Json)) (key : String) : Option Json :=
  match fields.filter (·.1 = key) with
  | [(_, value)] => some value
  | _ => none

def record? (names : List String) : Json → Option (List Json)
  | object fields => do
    let fields ← keyed fields
    names.mapM (only? fields)
  | list items => if items.length = names.length then some items else none
  | _ => none

end SimdDispatch.Json
