import SimdDispatch.Config.Loose
import SimdDispatch.Proofs.Event
import SimdDispatch.Proofs.Scanner
import SimdDispatch.Proofs.Setting

/-!
The values of environment variables have keys that differ from each other, however they are written.
-/
namespace SimdDispatch.Loose

open Scanner

variable {α β : Type} {P : α → Prop} {R : β → Prop}

/-- Whatever a reader reads without being cut short has a property. -/
def Gives (P : α → Prop) (p : Reader α) : Prop := Yields (fun read => ∀ a, read = .ok a → P a) p.run

theorem gives_pure {a : α} (holds : P a) : Gives P (pure a : Reader α) :=
  yields_pure fun b same => by
    cases same
    exact holds

theorem gives_lift {p : Scanner α} (each : Yields P p) : Gives P (ExceptT.lift p) :=
  yields_map fun cs a rest read b same => by
    cases same
    exact each cs a rest read

theorem gives_bind {p : Reader α} {next : α → Reader β} (first : Gives P p)
    (second : ∀ a, P a → Gives R (next a)) : Gives R (p >>= next) := by
  refine yields_bind first fun read holds => ?_
  cases read with
  | error e => exact yields_pure fun b same => by cases same
  | ok a => exact second a (holds a rfl)

theorem gives_after {p : Reader α} {next : α → Reader β} (second : ∀ a, Gives R (next a)) :
    Gives R (p >>= next) := by
  refine yields_after fun read => ?_
  cases read with
  | error e => exact yields_pure fun b same => by cases same
  | ok a => exact second a

theorem gives_map {p : Reader α} {f : α → β} (each : Gives P p) (image : ∀ a, P a → R (f a)) :
    Gives R (f <$> p) :=
  gives_bind each fun a holds => gives_pure (image a holds)

theorem mapM_id_ok {reads : List (Except SplitCharacter α)}
    (each : ∀ read ∈ reads, ∀ a, read = .ok a → P a) {as : List α} (whole : reads.mapM id = .ok as) :
    ∀ a ∈ as, P a := by
  have pairs := mapM_eq_ok_iff.mp whole
  induction pairs with
  | nil => exact List.forall_mem_nil _
  | cons taken _ ih =>
    obtain ⟨first, others⟩ := List.forall_mem_cons.mp each
    exact List.forall_mem_cons.mpr ⟨first _ taken, ih others (mapM_eq_ok_iff.mpr ‹_›)⟩

theorem gives_manyItems {item : Reader α} (each : Gives P item) :
    Gives (fun as => ∀ a ∈ as, P a) (manyItems item) :=
  yields_bind (yields_many each) fun _ reads => yields_pure fun _ whole => mapM_id_ok reads whole

theorem gives_items {first last : Char} {item : Reader α} (each : Gives P item) :
    Gives (fun as => ∀ a ∈ as, P a) (items first last item) := by
  refine gives_after fun _ => gives_bind (gives_manyItems ?_) fun _ found =>
    gives_after fun _ => gives_pure found
  refine gives_after fun _ => gives_bind each fun a holds => gives_after fun ahead => ?_
  split
  · exact gives_after fun _ => gives_pure holds
  · exact gives_pure holds

theorem tableOf_distinct {entries : List (String × Setting)} (each : ∀ e ∈ entries, e.2.Distinct) :
    (tableOf entries).Distinct := by
  have grown (t : Settings) (distinct : t.Distinct) :
      Settings.Distinct (entries.foldl (fun t e => Settings.insert e.1 e.2 t) t) := by
    induction entries generalizing t with
    | nil => exact distinct
    | cons e entries ih =>
      obtain ⟨first, others⟩ := List.forall_mem_cons.mp each
      exact ih others _ (distinct.insert e.1 first)
  exact Setting.distinct_table.mpr (grown [] Settings.Distinct.nil)

theorem plain_distinct (s : List Char) : (plain s).Distinct := by
  unfold plain
  split
  · exact .number
  · exact .text _

theorem unquoted_distinct : Yields Setting.Distinct unquoted := by
  refine yields_orElse (yields_after fun _ => yields_pure (.flag true)) ?_
  refine yields_orElse (yields_after fun _ => yields_pure (.flag false)) ?_
  refine yields_after fun ahead => ?_
  split
  · exact yields_after fun _ => yields_after fun _ => yields_after fun _ => yields_pure (.text _)
  · exact yields_after fun s => yields_pure (plain_distinct _)

theorem value_distinct (depth : Nat) : Gives Setting.Distinct (value depth) := by
  induction depth with
  | zero => exact gives_lift yields_failure
  | succ depth ih =>
    have entries : Gives (fun e : String × Setting => e.2.Distinct) (entry (value depth)) :=
      gives_after fun _ => gives_after fun _ => gives_after fun _ => gives_after fun _ =>
        gives_bind ih fun _ inner => gives_pure inner
    have texts : Gives Setting.Distinct (Setting.text <$> quoted) :=
      gives_after fun s => gives_pure (.text s)
    have closed (found : Setting) (inner : found.Distinct) :
        Gives Setting.Distinct (do blanks; return found) := gives_after fun _ => gives_pure inner
    refine gives_after fun _ => gives_after fun ahead => ?_
    split
    · exact gives_bind texts closed
    · exact gives_bind (gives_map (gives_items ih) fun _ each => .list each) closed
    · exact gives_bind (gives_map (gives_items entries) fun _ each => tableOf_distinct each) closed
    · exact gives_bind (gives_lift unquoted_distinct) closed

theorem read_distinct {s : String} {v : Setting} (done : read s = .ok v) : v.Distinct := by
  unfold read at done
  extract_lets whole at done
  have each : Gives Setting.Distinct whole :=
    gives_bind (value_distinct _) fun _ inner => gives_after fun _ => gives_pure inner
  split at done
  · rename_i found rest parsed
    exact each _ _ _ parsed v done
  · cases done
    exact .text s

end SimdDispatch.Loose
