/-!
Settings before they are typed: the values that configuration documents and environment variables
hold, and how the tables of two sources are laid over each other.
-/
namespace SimdDispatch

inductive Setting where
  | flag (value : Bool)
  /-- A number; no setting is one, so which number it is does not matter. -/
  | number
  | text (value : String)
  | list (items : List Setting)
  /-- A table; its keys differ from each other. -/
  | table (entries : List (String × Setting))

abbrev Settings := List (String × Setting)

namespace Settings

/-- A table with one entry added, or replaced where it stands. -/
def insert (key : String) (value : Setting) : Settings → Settings
  | [] => [(key, value)]
  | (k, v) :: rest => if k = key then (key, value) :: rest else (k, v) :: insert key value rest

def get? (entries : Settings) : List String → Option Setting
  | [] => some (.table entries)
  | [key] => entries.lookup key
  | key :: path => match entries.lookup key with
    | some (.table inner) => get? inner path
    | _ => none

/-- The table with one value at a path of keys, of which there is one at least. -/
def nested (key : String) (value : Setting) : List String → Settings
  | [] => [(key, value)]
  | next :: path => [(key, .table (nested next value path))]

end Settings

mutual

/-- A setting laid over another: tables are merged, any other setting replaces what it covers. -/
def Setting.over (lower : Option Setting) : Setting → Setting
  | .table upper => match lower with
    | some (.table entries) => .table (Settings.merge entries upper)
    | _ => .table upper
  | upper => upper

def Settings.merge (lower : Settings) : Settings → Settings
  | [] => lower
  | (key, value) :: rest =>
    Settings.merge (Settings.insert key (Setting.over (lower.lookup key) value) lower) rest

end

end SimdDispatch
