import SimdDispatch.Proofs.Setting
import SimdDispatch.Proofs.Toml.Statement

/-!
Documents whose tables are defined one after the other, each by its header and the assignments under
it. The statements of such a document build the tables in the order in which they stand.
-/
namespace SimdDispatch.Toml

namespace Tree

variable {base inner : Entries} {key : String} {tree : Tree}

theorem put_eq_put (key : String) (tree : Tree) (entries : Entries) :
    put key tree entries = Entries.put key tree entries := by
  induction entries with
  | nil => rfl
  | cons entry rest ih => rw [put, Entries.put, ih]

/-- A place for entries to which a path of headers leads. -/
def Leads (path : List String) (place : Entries → Entries) : Prop :=
  ∀ change entries, alongHeaders change path (place entries) = (change entries).map place

theorem leads_nil : Leads [] id := by
  intro change entries
  rw [id, alongHeaders, Option.map_id_fun, id]

theorem alongHeaders_append (change : Entries → Option Entries) (path more : List String)
    (entries : Entries) : alongHeaders change (path ++ more) entries =
      alongHeaders (alongHeaders change more) path entries := by
  induction path generalizing entries with
  | nil => rfl
  | cons key path ih =>
    rw [List.cons_append, alongHeaders, alongHeaders]
    cases entries.lookup key with
    | none => simp only [ih]
    | some tree => cases tree <;> simp only [ih]

theorem Leads.append {path more : List String} {place within : Entries → Entries}
    (leads : Leads path place) (further : Leads more within) :
    Leads (path ++ more) fun entries => place (within entries) := by
  intro change entries
  rw [alongHeaders_append, leads, further, Option.map_map]
  rfl

theorem leads_last (fresh : key ∉ base.map (·.1)) (origin : Origin) :
    Leads [key] fun entries => base ++ [(key, .table origin entries)] := by
  intro change entries
  rw [alongHeaders, Entries.lookup_last fresh]
  simp only [alongHeaders]
  cases change entries with
  | none => rfl
  | some changed => exact congrArg some ((put_eq_put _ _ _).trans (Entries.put_last fresh _ _))

def ofSettings (s : Settings) : Entries := s.map fun (k, v) => (k, .value v)

theorem toSettings_eq_map (entries : Entries) :
    toSettings entries = entries.map fun (k, t) => (k, toSetting t) := by
  induction entries with
  | nil => rfl
  | cons entry rest ih => exact congrArg (_ :: ·) ih

theorem toSettings_append (before after : Entries) :
    toSettings (before ++ after) = toSettings before ++ toSettings after := by
  simp only [toSettings_eq_map, List.map_append]

theorem toSettings_ofSettings (s : Settings) : toSettings (ofSettings s) = s := by
  rw [toSettings_eq_map, ofSettings, List.map_map]
  exact List.map_id s

theorem toSettings_tables (ts : List (String × Settings)) :
    toSettings (ts.map fun (k, s) => (k, .table .header (ofSettings s))) =
      ts.map fun (k, s) => (k, .table s) := by
  rw [toSettings_eq_map, List.map_map]
  refine List.map_congr_left fun t _ => ?_
  simp only [Function.comp, toSetting, toSettings_ofSettings]

end Tree

open Toml.Tree

namespace Statement

/-- The assignments that define a table one key after the other. -/
def assignments (s : Settings) : List Statement := s.map fun (k, v) => .assign ⟨[], k⟩ v

/-- A text of whole lines that are read as these statements. -/
def Lines (t : List Char) (statements : List Statement) : Prop :=
  ∀ rest, ∃ found, Scanner.Steps readLine (t ++ rest) found rest ∧ found.filterMap id = statements

theorem lines_nil : Lines [] [] := fun rest => ⟨[], .nil rest, rfl⟩

theorem Lines.append {t u : List Char} {first second : List Statement} (before : Lines t first)
    (after : Lines u second) : Lines (t ++ u) (first ++ second) := by
  intro rest
  obtain ⟨found, steps, read⟩ := before (u ++ rest)
  obtain ⟨more, others, following⟩ := after rest
  refine ⟨found ++ more, ?_, by rw [List.filterMap_append, read, following]⟩
  rw [List.append_assoc]
  exact steps.append others

theorem lines_flatMap {α : Type} {t : α → List Char} {statements : α → List Statement}
    (each : ∀ a, Lines (t a) (statements a)) (as : List α) :
    Lines (as.flatMap t) (as.flatMap statements) := by
  induction as with
  | nil => exact lines_nil
  | cons a as ih => exact (each a).append ih

theorem lines_writeAssignment {t : List Char} {v : Setting} (holds : Holds t v) (k : String) :
    Lines (writeAssignment k t) (assignments [(k, v)]) := by
  intro rest
  refine ⟨[some (.assign ⟨[], k⟩ v)], ?_, rfl⟩
  exact .cons (readLine_writeAssignment holds k rest) (by simp [writeAssignment]; omega) (.nil rest)

theorem lines_writeHeader (k : String) (ks : List String) (short : ks.length < maxDepth) :
    Lines (writeHeader (k :: ks)) [.table (.ofParts k ks)] :=
  fun rest => ⟨_, steps_writeHeader k ks short rest, rfl⟩

theorem assignments_append (s t : Settings) :
    assignments (s ++ t) = assignments s ++ assignments t := List.map_append

def tables (path : List String) (ts : List (String × Settings)) : List Statement :=
  ts.flatMap fun (k, s) => .table ⟨path, k⟩ :: assignments s

end Statement

namespace Progress

variable {path : List String} {place : Entries → Entries} {s : Settings}

theorem step_assign (leads : Leads path place) {entries : Entries} {key : String}
    (fresh : key ∉ entries.map (·.1)) (v : Setting) :
    step ⟨path, place entries⟩ (.assign ⟨[], key⟩ v) =
      some ⟨path, place (entries ++ [(key, .value v)])⟩ := by
  have absent : entries.lookup key = none := Entries.lookup_eq_none.mpr fresh
  have placed : assignHere ⟨[], key⟩ v entries = some (entries ++ [(key, .value v)]) := by
    simp [assignHere, assign, absent, put_eq_put, Entries.put_of_fresh fresh]
  have led := leads (assignHere ⟨[], key⟩ v) entries
  rw [placed] at led
  simp [step, led]

theorem foldlM_assignments (leads : Leads path place) (entries : Entries)
    (distinct : (entries.map (·.1) ++ s.map (·.1)).Nodup) :
    (Statement.assignments s).foldlM step ⟨path, place entries⟩ =
      some ⟨path, place (entries ++ ofSettings s)⟩ := by
  induction s generalizing entries with
  | nil => simp [Statement.assignments, ofSettings]
  | cons entry rest ih =>
    obtain ⟨key, v⟩ := entry
    have fresh : key ∉ entries.map (·.1) :=
      fun held => (List.nodup_append.mp distinct).2.2 key held key List.mem_cons_self rfl
    have others : ((entries ++ [(key, Tree.value v)]).map (·.1) ++ rest.map (·.1)).Nodup := by
      simpa using distinct
    calc (Statement.assignments ((key, v) :: rest)).foldlM step ⟨path, place entries⟩
        = (step ⟨path, place entries⟩ (.assign ⟨[], key⟩ v) >>= fun p =>
            (Statement.assignments rest).foldlM step p) := rfl
      _ = (Statement.assignments rest).foldlM step
            ⟨path, place (entries ++ [(key, .value v)])⟩ := by
          rw [step_assign leads fresh]
          rfl
      _ = some ⟨path, place (entries ++ [(key, .value v)] ++ ofSettings rest)⟩ := ih _ others
      _ = some ⟨path, place (entries ++ ofSettings ((key, v) :: rest))⟩ := by
          simp [ofSettings]

theorem step_table (leads : Leads path place) (current : List String) {entries : Entries}
    {key : String} (fresh : key ∉ entries.map (·.1)) :
    step ⟨current, place entries⟩ (.table ⟨path, key⟩) =
      some ⟨path ++ [key], place (entries ++ [(key, .table .header [])])⟩ := by
  have absent : entries.lookup key = none := Entries.lookup_eq_none.mpr fresh
  have opened : openTable key entries = some (entries ++ [(key, .table .header [])]) := by
    simp [openTable, absent, put_eq_put, Entries.put_of_fresh fresh]
  have led := leads (openTable key) entries
  rw [opened] at led
  simp [step, enter, led]

theorem foldlM_tables (leads : Leads path place) (current : List String) (entries : Entries)
    {ts : List (String × Settings)} (distinct : (entries.map (·.1) ++ ts.map (·.1)).Nodup)
    (each : ∀ t ∈ ts, (t.2.map (·.1)).Nodup) :
    ∃ last, (Statement.tables path ts).foldlM step ⟨current, place entries⟩ =
      some ⟨last, place (entries ++ ts.map fun (k, s) => (k, .table .header (ofSettings s)))⟩ := by
  induction ts generalizing current entries with
  | nil => exact ⟨current, by simp [Statement.tables]⟩
  | cons t rest ih =>
    obtain ⟨key, s⟩ := t
    have fresh : key ∉ entries.map (·.1) :=
      fun held => (List.nodup_append.mp distinct).2.2 key held key List.mem_cons_self rfl
    have others : ((entries ++ [(key, Tree.table .header (ofSettings s))]).map (·.1) ++
        rest.map (·.1)).Nodup := by
      simpa using distinct
    have own : (([] : Entries).map (·.1) ++ s.map (·.1)).Nodup := each _ List.mem_cons_self
    have inside : Leads (path ++ [key])
        fun es => place (entries ++ [(key, .table .header es)]) :=
      leads.append (leads_last fresh .header)
    obtain ⟨last, following⟩ := ih (path ++ [key]) _ others
      fun t member => each t (List.mem_cons_of_mem _ member)
    refine ⟨last, ?_⟩
    calc (Statement.tables path ((key, s) :: rest)).foldlM step ⟨current, place entries⟩
        = (step ⟨current, place entries⟩ (.table ⟨path, key⟩) >>= fun p =>
            (Statement.assignments s ++ Statement.tables path rest).foldlM step p) := rfl
      _ = (Statement.assignments s ++ Statement.tables path rest).foldlM step
            ⟨path ++ [key], place (entries ++ [(key, .table .header [])])⟩ := by
          rw [step_table leads current fresh]
          rfl
      _ = (Statement.tables path rest).foldlM step
            ⟨path ++ [key], place (entries ++ [(key, .table .header (ofSettings s))])⟩ := by
          rw [List.foldlM_append, foldlM_assignments inside [] own]
          rfl
      _ = some ⟨last, place (entries ++ [(key, .table .header (ofSettings s))] ++
            rest.map fun (k, s) => (k, .table .header (ofSettings s)))⟩ := following
      _ = some ⟨last, place (entries ++
            ((key, s) :: rest).map fun (k, s) => (k, .table .header (ofSettings s)))⟩ := by
          simp

/-- Where the parent of a table is missing, it is made as if it had been there empty. -/
theorem step_table_missing {base : Entries} {parent : String} (fresh : parent ∉ base.map (·.1))
    (current : List String) (key : String) :
    step ⟨current, base⟩ (.table ⟨[parent], key⟩) =
      step ⟨current, base ++ [(parent, .table .parent [])]⟩ (.table ⟨[parent], key⟩) := by
  have led := leads_last fresh .parent (openTable key) []
  have made : alongHeaders (openTable key) [parent] base =
      alongHeaders (openTable key) [parent] (base ++ [(parent, .table .parent [])]) := by
    refine Eq.trans ?_ led.symm
    rw [alongHeaders, Entries.lookup_eq_none.mpr fresh]
    simp only [put_eq_put, Entries.put_of_fresh fresh, alongHeaders]
    cases openTable key [] <;> rfl
  simp only [step, enter, made]

theorem foldlM_tables_missing {base : Entries} {parent : String} (fresh : parent ∉ base.map (·.1))
    (current : List String) {ts : List (String × Settings)} (occupied : ts ≠ []) :
    (Statement.tables [parent] ts).foldlM step ⟨current, base⟩ =
      (Statement.tables [parent] ts).foldlM step
        ⟨current, base ++ [(parent, .table .parent [])]⟩ := by
  cases ts with
  | nil => exact absurd rfl occupied
  | cons t rest =>
    have made := step_table_missing fresh current t.1
    exact congrArg (· >>= fun p =>
      (Statement.assignments t.2 ++ Statement.tables [parent] rest).foldlM step p) made

end Progress
end SimdDispatch.Toml
