/-!
The files that a program can see. Paths are resolved component by component from a directory; every
component but the last must be a directory.
-/
namespace SimdDispatch

abbrev Location := List String

structure FileTree where
  current : Location
  files : List (Location × String)
  /-- Directories besides those that the current directory and the files are in. -/
  directories : List Location := []

inductive FileFault where
  | missing
  | isDirectory
deriving DecidableEq

def FileFault.message : FileFault → String
  | missing => "No such file or directory (os error 2)"
  | isDirectory => "Is a directory (os error 21)"

namespace FileTree

def isDirectory (t : FileTree) (here : Location) : Bool :=
  here.isPrefixOf t.current || t.directories.any here.isPrefixOf ||
    t.files.any fun (file, _) => here.isPrefixOf file.dropLast

def step (t : FileTree) (here : Location) (component : String) : Option Location :=
  if !t.isDirectory here then none
  else if component = "" || component = "." then some here
  else if component = ".." then some here.dropLast
  else some (here ++ [component])

def components (path : String) : List String := (path.toList.splitOn '/').map String.ofList

def locate (t : FileTree) (start : Location) (path : String) : Option Location :=
  let absolute := path.toList.head? == some '/'
  (components path).foldlM t.step (if absolute then [] else start)

def readFrom (t : FileTree) (start : Location) (path : String) : Option String := do
  t.files.lookup (← t.locate start path)

def read (t : FileTree) (path : String) : Option String := t.readFrom t.current path

/-- A directory and those that it is in, the innermost first. -/
def upwards (here : Location) : List Location :=
  (List.range (here.length + 1)).map fun n => here.take (here.length - n)

/-- The text of the file that a path leads to from the nearest directory where it leads to one:
the current directory or one that it is in. -/
def search (t : FileTree) (path : String) : Option String :=
  (upwards t.current).findSome? fun here => t.readFrom here path

/-- The place that a file can be written to. -/
def writable (t : FileTree) (path : String) : Except FileFault Location :=
  match t.locate t.current path with
  | none => .error .missing
  | some place => if t.isDirectory place then .error .isDirectory else .ok place

end FileTree
end SimdDispatch
