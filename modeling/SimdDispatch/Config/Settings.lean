import SimdDispatch.Config
import SimdDispatch.Setting

/-!
Configurations as settings, and settings read as configurations. Settings that no configuration has
are passed over; one of the wrong type makes the whole unreadable.
-/
namespace SimdDispatch

def Setting.flag? : Setting → Option Bool
  | .flag b => some b
  | _ => none

def Setting.text? : Setting → Option String
  | .text s => some s
  | _ => none

def Setting.texts? : Setting → Option (List String)
  | .list items => items.mapM Setting.text?
  | _ => none

def Setting.optional? {α : Type} (read : Setting → Option α) : Option Setting → Option (Option α)
  | none => some none
  | some s => some <$> read s

/-- A preference is a table, or a list of names in the order of the slots. A slot that a short list
does not reach has no name, and what follows the first two items is passed over. -/
def Preference.ofSetting? : Setting → Option Preference
  | .table entries => do
    let aligned ← Setting.optional? Setting.text? (entries.lookup "aligned")
    let unaligned ← Setting.optional? Setting.text? (entries.lookup "unaligned")
    return ⟨aligned, unaligned⟩
  | .list items => do
    let aligned ← Setting.optional? Setting.text? items[0]?
    let unaligned ← Setting.optional? Setting.text? items[1]?
    return ⟨aligned, unaligned⟩
  | _ => none

def Setting.overrides? : Setting → Option (SortedMap Preference)
  | .table entries => do
    let preferences ← entries.mapM fun (primitive, s) => do
      return (primitive, ← Preference.ofSetting? s)
    return .ofList preferences
  | _ => none

namespace Config

/-- The configuration that settings describe; a missing setting has its default. -/
def ofSettings? (s : Settings) : Option Config := do
  let forceGeneric ← Setting.optional? Setting.flag? (s.lookup "force_generic")
  let disabled ← Setting.optional? Setting.texts? (s.lookup "disabled_capabilities")
  let machine ← Setting.optional? Setting.text? (s.lookup "machine")
  let overrides ← Setting.optional? Setting.overrides? (s.lookup "overrides")
  return ⟨forceGeneric.getD false, disabled.getD [], machine, overrides.getD ∅⟩

/-- The lowest layer of settings, which every other one covers. -/
def defaults : Settings :=
  [("force_generic", .flag false), ("disabled_capabilities", .list []), ("overrides", .table [])]

/-- The accepted configuration that layers of settings describe, each laid over those before. -/
def ofLayers (layers : List Settings) : Except Error Config :=
  match ofSettings? (layers.foldl Settings.merge defaults) with
  | none => .error .unreadable
  | some config => do
    config.validate
    return config

end Config
end SimdDispatch
