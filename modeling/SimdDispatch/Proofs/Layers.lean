import SimdDispatch.Config.Document
import SimdDispatch.Proofs.Event
import SimdDispatch.Proofs.Setting

/-!
Layers of settings above the defaults. The defaults supply what no layer holds, and a configuration
is read off the settings at a few keys.
-/
namespace SimdDispatch

/-- A setting laid over anything but a table with entries stays as it is. -/
theorem Setting.over_eq_self {lower : Option Setting} {v : Setting} (distinct : v.Distinct)
    (flat : ∀ entries, lower = some (.table entries) → entries = []) : Setting.over lower v = v := by
  cases v with
  | table entries =>
    unfold Setting.over
    split
    · rename_i held
      rw [flat _ rfl, Settings.merge_nil (distinct_table.mp distinct).keys]
    · rfl
  | _ => simp only [Setting.over]

namespace Config

theorem settingsOf_eq (document : String) : settingsOf document =
    (Toml.read document >>= Settings.uncarried?).elim (.error .unreadable) .ok := by
  delta settingsOf
  cases Toml.read document >>= Settings.uncarried? <;> rfl

theorem ofLayers_of_ofSettings? {layers : List Settings} {c : Config}
    (described : ofSettings? (layers.foldl Settings.merge defaults) = some c) :
    ofLayers layers = c.validate.map fun _ => c := by
  rw [ofLayers, described]
  change (c.validate >>= fun _ => pure c) = _
  cases c.validate <;> rfl

theorem defaults_flat {k : String} {entries : Settings}
    (held : defaults.lookup k = some (.table entries)) : entries = [] := by
  simp only [defaults, lookup_cons_eq] at held
  split_ifs at held
  · cases held
  · cases held
  · cases held
    rfl
  · cases held

theorem lookup_merge_defaults {s : Settings} (distinct : s.Distinct) (k : String) :
    (Settings.merge defaults s).lookup k = (s.lookup k).or (defaults.lookup k) := by
  rw [Settings.lookup_merge distinct.keys]
  cases found : s.lookup k with
  | none => rfl
  | some v =>
    have kept : Setting.over (defaults.lookup k) v = v :=
      Setting.over_eq_self (distinct.of_lookup found) fun _ held => defaults_flat held
    rw [Option.elim_some, kept, Option.some_or]

end Config
end SimdDispatch
