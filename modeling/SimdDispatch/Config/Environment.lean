import SimdDispatch.Config.Loose

/-!
Settings in environment variables. A variable whose name starts with the prefix sets the key that
the rest of its name spells; two underscores lead into a table.
-/
namespace SimdDispatch

/-- Variables with their values, in the order in which they apply. -/
abbrev Environment := List (String × String)

namespace Environment

def mark : String := "LANEKIT_"

def fileVariable : String := "LANEKIT_CONFIG"

/-- The key that is reserved for the name of the configuration file. -/
def reserved : List Char := "config".toList

def lowercase (cs : List Char) : List Char := cs.map Char.toLower

/-- Two underscores in a row made one dot. -/
def dotted : List Char → List Char
  | '_' :: '_' :: rest => '.' :: dotted rest
  | c :: rest => c :: dotted rest
  | [] => []

def parts (cs : List Char) : List (List Char) := cs.splitOn '.'

/-- The keys that the name of a variable spells, if it holds a setting: one for each table on the
way and one for the setting itself, none of them empty. -/
def keys? (name : String) : Option (String × List String) :=
  let cs := Text.trimWhile Text.isBlank name.toList
  let start := mark.toList
  if lowercase (cs.take start.length) ≠ lowercase start then none
  else
    let rest := cs.drop start.length
    if lowercase rest = reserved then none
    else
      let keys := parts (Text.trimWhile Text.isBlank (dotted rest))
      if keys.any List.isEmpty then none
      else match keys.map fun k => String.ofList (lowercase k) with
        | [] => none
        | first :: more => some (first, more)

/-- The settings of one variable; none are under a name that spells no keys. -/
def settingsOf (name value : String) : Except Loose.SplitCharacter Settings :=
  match keys? name with
  | none => .ok []
  | some (first, more) => (Settings.nested first · more) <$> Loose.read value

def settings (environment : Environment) : Except Loose.SplitCharacter Settings := do
  let layers ← environment.mapM fun (name, value) => settingsOf name value
  return layers.foldl Settings.merge []

end Environment
end SimdDispatch
