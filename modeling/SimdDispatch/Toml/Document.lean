import SimdDispatch.Toml.Statement

/-!
TOML documents. Reading applies the statements one after the other to a table that grows; writing
is line by line, a table being a header and the assignments under it.
-/
namespace SimdDispatch.Toml

structure Progress where
  /-- The keys that lead to the table being defined. -/
  current : List String
  entries : Entries

namespace Progress

def start : Progress := ⟨[], []⟩

def enter (p : Progress) (path : KeyPath) (change : String → Entries → Option Entries) :
    Option Progress := do
  let entries ← Tree.alongHeaders (change path.last) path.parents p.entries
  return ⟨path.parents ++ [path.last], entries⟩

/-- Applies a statement; one that defines something again is refused. -/
def step (p : Progress) : Statement → Option Progress
  | .table path => p.enter path Tree.openTable
  | .item path => p.enter path Tree.openItem
  | .assign path value => do
    let entries ← Tree.alongHeaders (Tree.assignHere path value) p.current p.entries
    return { p with entries }

end Progress

def read (document : String) : Option Settings := do
  let statements ← Statement.readAll document
  let finished ← statements.foldlM Progress.step .start
  return Tree.toSettings finished.entries

def writeFlag (b : Bool) : List Char := (if b then "true" else "false").toList

def writeText (s : String) : List Char := writeValue s.toList

/-- A list of texts; several have a line each. -/
def writeTexts : List String → List Char
  | [] => "[]".toList
  | [s] => '[' :: writeText s ++ [']']
  | several =>
    "[\n".toList ++ several.flatMap (fun s => "    ".toList ++ writeText s ++ ",\n".toList) ++ [']']

def writeAssignment (key : String) (value : List Char) : List Char :=
  writeKey key.toList ++ " = ".toList ++ value ++ ['\n']

def writeHeader (keys : List String) : List Char :=
  "\n[".toList ++ ['.'].intercalate (keys.map fun k => writeKey k.toList) ++ "]\n".toList

end SimdDispatch.Toml
