import SimdDispatch.Setting

/-!
Tables in the making. A table is defined once: by a header, by the dotted keys of one table, or in
one piece as a value; how it came about decides what may still be added to it.
-/
namespace SimdDispatch.Toml

/-- A dotted key: where it leads and what it names there. -/
structure KeyPath where
  parents : List String
  last : String
deriving DecidableEq

def KeyPath.ofParts (first : String) : List String → KeyPath
  | [] => ⟨[], first⟩
  | next :: rest =>
    let inner := ofParts next rest
    ⟨first :: inner.parents, inner.last⟩

/-- How a table came about. -/
inductive Origin where
  | header
  | parent
  | dotted
deriving DecidableEq

inductive Tree where
  | value (setting : Setting)
  | table (origin : Origin) (entries : List (String × Tree))
  /-- A list of tables; the first one given is the latest. -/
  | tables (latest : List (String × Tree)) (earlier : List (List (String × Tree)))

abbrev Entries := List (String × Tree)

namespace Tree

def put (key : String) (tree : Tree) : Entries → Entries
  | [] => [(key, tree)]
  | (k, t) :: rest => if k = key then (key, tree) :: rest else (k, t) :: put key tree rest

/-- Changes the table that a path of headers leads to; missing tables on the way are made, and of a
list of tables the latest is meant. -/
def alongHeaders (change : Entries → Option Entries) : List String → Entries → Option Entries
  | [], entries => change entries
  | key :: path, entries =>
    match entries.lookup key with
    | none => do return put key (.table .parent (← alongHeaders change path [])) entries
    | some (.table origin inner) => do
      return put key (.table origin (← alongHeaders change path inner)) entries
    | some (.tables latest earlier) => do
      return put key (.tables (← alongHeaders change path latest) earlier) entries
    | some (.value _) => none

/-- Assigns a value to a dotted key of a table. Tables on the way must not have a header of their
own, and the last of them must have been made by dotted keys, as `origin` tells. -/
def assign (key : String) (setting : Setting) : List String → Origin → Entries → Option Entries
  | [], origin, entries =>
    if origin ≠ .dotted || (entries.lookup key).isSome then none
    else some (put key (.value setting) entries)
  | next :: path, _, entries =>
    match entries.lookup next with
    | none => do return put next (.table .dotted (← assign key setting path .dotted [])) entries
    | some (.table .header _) => none
    | some (.table origin inner) => do
      return put next (.table origin (← assign key setting path origin inner)) entries
    | some (.tables latest earlier) => do
      return put next (.tables (← assign key setting path .header latest) earlier) entries
    | some (.value _) => none

/-- Opens a table by its header: it is new, or so far only a parent of others. -/
def openTable (key : String) (entries : Entries) : Option Entries :=
  match entries.lookup key with
  | none => some (put key (.table .header []) entries)
  | some (.table .parent inner) => some (put key (.table .header inner) entries)
  | _ => none

/-- Opens a further table of a list of tables. -/
def openItem (key : String) (entries : Entries) : Option Entries :=
  match entries.lookup key with
  | none => some (put key (.tables [] []) entries)
  | some (.tables latest earlier) => some (put key (.tables [] (latest :: earlier)) entries)
  | _ => none

mutual

def toSetting : Tree → Setting
  | value s => s
  | table _ entries => .table (toSettings entries)
  | tables latest earlier => .list (tablesToSettings earlier [.table (toSettings latest)])

def toSettings : List (String × Tree) → Settings
  | [] => []
  | (key, tree) :: rest => (key, toSetting tree) :: toSettings rest

def tablesToSettings : List (List (String × Tree)) → List Setting → List Setting
  | [], later => later
  | entries :: earlier, later => tablesToSettings earlier (.table (toSettings entries) :: later)

end

/-- Assigns a value within the table that is being defined; its own keys are always welcome. -/
def assignHere (path : KeyPath) (setting : Setting) (entries : Entries) : Option Entries :=
  assign path.last setting path.parents .dotted entries

def ofAssignments? (pairs : List (KeyPath × Setting)) : Option Settings := do
  let entries ← pairs.foldlM (fun entries (path, setting) => assignHere path setting entries) []
  return toSettings entries

end Tree
end SimdDispatch.Toml
