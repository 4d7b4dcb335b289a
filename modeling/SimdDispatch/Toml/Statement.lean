import SimdDispatch.Setting
import SimdDispatch.Toml.Number
import SimdDispatch.Toml.Quoted
import SimdDispatch.Toml.Tree

/-!
The statements of a TOML document: headers of tables and of items of table lists, and assignments
of values to keys. Lists, inline tables and dotted keys are nested less than eighty deep.
-/
namespace SimdDispatch.Toml

open Scanner

/-- How deep lists and inline tables may be nested, and keys dotted. -/
def maxDepth : Nat := 79

/-- A comment; the line break after it is not taken. -/
def comment : Scanner Unit := do
  char '#'
  skipWhile fun c => !isForbidden c

def blanks : Scanner Unit := skipWhile isBlank

/-- What may stand at the end of a line, and the end of the line. -/
def lineEnd : Scanner Unit := do
  blanks
  discard (optional comment)
  newline <|> finished

def space : Scanner Unit :=
  discard (many (discard (takeSome isBlank) <|> newline <|> comment))

def key : Scanner KeyPath := do
  let part : Scanner String := do
    blanks
    let k ← simpleKey
    blanks
    return k
  let parts ← sepBy part (char '.')
  match parts with
  | first :: rest => if rest.length < maxDepth then return KeyPath.ofParts first rest else failure
  | [] => failure

/-- The key under which a table holds a date or a time. -/
def momentKey : String := "$__toml_private_datetime"

/-- A value that holds no other values. A date or a time is a table with one entry. No setting is
one, so which it is does not matter. -/
def scalar : Scanner Setting :=
  .text <$> text <|> (do moment; return .table [(momentKey, .text "")]) <|>
    (do float <|> special <|> integer; return .number) <|>
    (do literal "true"; return .flag true) <|> (do literal "false"; return .flag false)

/-- The items of a list; a comma may stand after the last one. -/
def items (value : Scanner Setting) : Scanner (List Setting) := do
  char '['
  space
  let found ← optional (sepBy (do space; let v ← value; space; return v) (char ','))
  if found.isSome then discard (optional (char ','))
  space
  char ']'
  return found.getD []

def pairs (value : Scanner Setting) : Scanner (List (KeyPath × Setting)) := do
  char '\x7b'
  let pair : Scanner (KeyPath × Setting) := do
    let path ← key
    char '='
    blanks
    let v ← value
    blanks
    return (path, v)
  let found ← optional (sepBy pair (char ','))
  blanks
  char '\x7d'
  return found.getD []

def value : Nat → Scanner Setting
  | 0 => scalar
  | depth + 1 => scalar <|> .list <$> items (value depth) <|> do
    match Tree.ofAssignments? (← pairs (value depth)) with
    | some entries => return .table entries
    | none => failure

inductive Statement where
  | table (path : KeyPath)
  | item (path : KeyPath)
  | assign (path : KeyPath) (value : Setting)

namespace Statement

def header : Scanner Statement :=
  (do
    literal "[["
    let path ← key
    literal "]]"
    return .item path) <|> do
  char '['
  let path ← key
  char ']'
  return .table path

def assignment : Scanner Statement := do
  let path ← key
  char '='
  blanks
  return .assign path (← value maxDepth)

def readLine : Scanner (Option Statement) := do
  blanks
  let statement ← optional (header <|> assignment)
  lineEnd
  return statement

/-- The statements of a document, which may start with a byte order mark. -/
def readAll (document : String) : Option (List Statement) :=
  Scanner.readAll (do
    discard (optional (char '\ufeff'))
    let found ← many readLine
    return found.filterMap id) document

end Statement
end SimdDispatch.Toml
