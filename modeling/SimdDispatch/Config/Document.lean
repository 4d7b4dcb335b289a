import SimdDispatch.Config.Carried
import SimdDispatch.Config.Settings
import SimdDispatch.Toml.Document

/-!
Configurations as TOML documents. What is written reads back as the same configuration.
-/
namespace SimdDispatch

/-- The lines of a preference; a slot without one has no line. -/
def Preference.write (p : Preference) : List Char :=
  let line (key : String) (name : Option String) : List Char :=
    match name with
    | some n => Toml.writeAssignment key (Toml.writeText n)
    | none => []
  line "aligned" p.aligned ++ line "unaligned" p.unaligned

namespace Config

/-- The tables of the preferences, or an empty table where there are none. -/
def writeOverrides (overrides : SortedMap Preference) : List Char :=
  if overrides.entries.isEmpty then Toml.writeHeader ["overrides"]
  else overrides.entries.flatMap fun (primitive, p) =>
    Toml.writeHeader ["overrides", primitive] ++ p.write

/-- The document of a configuration. -/
def write (c : Config) : String :=
  String.ofList (
    Toml.writeAssignment "force_generic" (Toml.writeFlag c.forceGeneric) ++
    Toml.writeAssignment "disabled_capabilities" (Toml.writeTexts c.disabled) ++
    (match c.machine with
      | some name => Toml.writeAssignment "machine" (Toml.writeText name)
      | none => []) ++
    writeOverrides c.overrides)

def settingsOf (document : String) : Except Error Settings :=
  match Toml.read document >>= Settings.uncarried? with
  | none => .error .unreadable
  | some settings => .ok settings

def read (document : String) : Except Error Config := do
  ofLayers [← settingsOf document]

end Config
end SimdDispatch
