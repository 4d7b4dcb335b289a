import SimdDispatch.Json.Basic
import SimdDispatch.Scanner

/-!
Reading JSON documents. Values nest as deeply as they like; blanks are the four that the format
names, and nothing may follow the document.
-/
namespace SimdDispatch.Json

open Scanner

def isBlank (c : Char) : Bool := c == ' ' || c == '\t' || c == '\n' || c == '\r'

def blanks : Scanner Unit := skipWhile isBlank

def mark (c : Char) : Scanner Unit := do blanks; char c

def body : Scanner (List Char) := do
  mark '"'
  fun cs => scanText cs

/-- The digits before the point: no zero stands in front of others. -/
def whole : Scanner (List Char) := do
  match ← satisfy Char.isDigit with
  | '0' => return ['0']
  | c => return c :: (← takeWhile Char.isDigit)

def exponent : Scanner (Bool × List Char) := do
  discard (satisfy fun c => c == 'e' || c == 'E')
  let sign ← optional (satisfy fun c => c == '+' || c == '-')
  return (sign == some '-', ← takeSome Char.isDigit)

/-- A number; a point or an exponent needs its digits. -/
def number? : Scanner Number := do
  blanks
  let negative ← optional (char '-')
  let whole ← whole
  let fraction ← optional (char '.')
  let digits ← if fraction.isSome then takeSome Char.isDigit else pure []
  let c ← peek
  let exponent ← if c == some 'e' || c == some 'E' then some <$> exponent else pure none
  return ⟨negative.isSome, whole, digits, exponent, fraction.isNone && exponent.isNone⟩

/-- Items between separating commas, or none, up to a closing mark. -/
def enclosed {α : Type} (last : Char) (item : Scanner α) : Scanner (List α) :=
  (do mark last; return []) <|> (do
    let items ← sepBy item (mark ',')
    mark last
    return items)

def value : Nat → Scanner Json
  | 0 => failure
  | depth + 1 => do
    blanks
    match ← peek with
    | some 'n' => do literal "null"; return .null
    | some 't' => do literal "true"; return .flag true
    | some 'f' => do literal "false"; return .flag false
    | some '"' => .text <$> body
    | some '[' => do
      mark '['
      .list <$> enclosed ']' (value depth)
    | some '\x7b' => do
      mark '\x7b'
      .object <$> enclosed '\x7d' (do
        let key ← body
        mark ':'
        return (key, ← value depth))
    | _ => .number <$> number?

def read (s : String) : Option Json :=
  readAll (do let j ← value (s.length + 1); blanks; return j) s

end SimdDispatch.Json
