import SimdDispatch.Proofs.Layers
import SimdDispatch.Proofs.Toml.Document

/-!
The settings of a document have keys that differ from each other, in every table and at any depth:
tables in the making keep this when a statement is applied, and so does replacing carried values.
-/
namespace SimdDispatch.Toml

open Scanner

inductive Tree.Distinct : Tree → Prop
  | value {s : Setting} (inner : s.Distinct) : Distinct (.value s)
  | table {origin : Origin} {entries : List (String × Tree)} (keys : (entries.map (·.1)).Nodup)
      (each : ∀ e ∈ entries, Distinct e.2) : Distinct (.table origin entries)
  | tables {latest : List (String × Tree)} {earlier : List (List (String × Tree))}
      (keys : ∀ entries ∈ latest :: earlier, (entries.map (·.1)).Nodup)
      (each : ∀ entries ∈ latest :: earlier, ∀ e ∈ entries, Distinct e.2) :
      Distinct (.tables latest earlier)

/-- Entries of a table in the making whose keys differ from each other, as do those of the tables in
it. -/
structure DistinctEntries (entries : Entries) : Prop where
  keys : (entries.map (·.1)).Nodup
  each : ∀ e ∈ entries, e.2.Distinct

section Changes

variable {entries latest : Entries} {earlier : List Entries} {origin : Origin}

theorem distinct_nil : DistinctEntries [] := ⟨List.nodup_nil, List.forall_mem_nil _⟩

theorem distinct_table : (Tree.table origin entries).Distinct ↔ DistinctEntries entries := by
  constructor
  · intro distinct
    cases distinct with
    | table keys each => exact ⟨keys, each⟩
  · exact fun distinct => .table distinct.keys distinct.each

theorem distinct_tables : (Tree.tables latest earlier).Distinct ↔
    ∀ entries ∈ latest :: earlier, DistinctEntries entries := by
  constructor
  · intro distinct
    cases distinct with
    | tables keys each => exact fun entries member => ⟨keys entries member, each entries member⟩
  · exact fun distinct => .tables (fun entries member => (distinct entries member).keys)
      fun entries member => (distinct entries member).each

theorem DistinctEntries.lookup (distinct : DistinctEntries entries) {key : String} {tree : Tree}
    (found : entries.lookup key = some tree) : tree.Distinct :=
  distinct.each _ (Entries.mem_of_lookup found)

theorem DistinctEntries.put (distinct : DistinctEntries entries) (key : String) {tree : Tree}
    (inner : tree.Distinct) : DistinctEntries (Tree.put key tree entries) where
  keys := by
    rw [Tree.put_eq_put]
    exact Entries.nodup_put distinct.keys key tree
  each e member := by
    rw [Tree.put_eq_put] at member
    rcases Entries.mem_put member with rfl | held
    · exact inner
    · exact distinct.each e held

theorem DistinctEntries.put_changed (distinct : DistinctEntries entries) {key : String}
    {inner : Option Entries} {place : Entries → Tree} {changed : Entries}
    (settled : ∀ new, inner = some new → (place new).Distinct)
    (done : (do return Tree.put key (place (← inner)) entries) = some changed) :
    DistinctEntries changed := by
  obtain ⟨new, made, returned⟩ := Option.bind_eq_some_iff.mp done
  obtain rfl := Option.some.inj returned
  exact distinct.put key (settled new made)

def KeepsDistinct (change : Entries → Option Entries) : Prop :=
  ∀ entries changed, DistinctEntries entries → change entries = some changed →
    DistinctEntries changed

theorem keepsDistinct_alongHeaders {change : Entries → Option Entries} (keeps : KeepsDistinct change)
    (path : List String) : KeepsDistinct (Tree.alongHeaders change path) := by
  induction path with
  | nil => exact keeps
  | cons key path ih =>
    intro entries changed distinct done
    rw [Tree.alongHeaders] at done
    cases held : entries.lookup key with
    | none =>
      rw [held] at done
      exact distinct.put_changed (fun _ made => distinct_table.mpr (ih _ _ distinct_nil made)) done
    | some tree =>
      have kept := distinct.lookup held
      rw [held] at done
      cases tree with
      | value s => cases done
      | table origin inner =>
        refine distinct.put_changed (fun _ made => ?_) done
        exact distinct_table.mpr (ih _ _ (distinct_table.mp kept) made)
      | tables latest earlier =>
        obtain ⟨last, before⟩ := List.forall_mem_cons.mp (distinct_tables.mp kept)
        refine distinct.put_changed (fun _ made => ?_) done
        exact distinct_tables.mpr (List.forall_mem_cons.mpr ⟨ih _ _ last made, before⟩)

theorem keepsDistinct_assign {setting : Setting} (inner : setting.Distinct) (key : String)
    (path : List String) (origin : Origin) : KeepsDistinct (Tree.assign key setting path origin) := by
  induction path generalizing origin with
  | nil =>
    intro entries changed distinct done
    rw [Tree.assign] at done
    split at done
    · cases done
    · cases done
      exact distinct.put key (.value inner)
  | cons next path ih =>
    intro entries changed distinct done
    rw [Tree.assign] at done
    cases held : entries.lookup next with
    | none =>
      rw [held] at done
      exact distinct.put_changed (fun _ made => distinct_table.mpr (ih _ _ _ distinct_nil made)) done
    | some tree =>
      have kept := distinct.lookup held
      rw [held] at done
      cases tree with
      | value s => cases done
      | table origin inner =>
        cases origin with
        | header => cases done
        | _ =>
          refine distinct.put_changed (fun _ made => ?_) done
          exact distinct_table.mpr (ih _ _ _ (distinct_table.mp kept) made)
      | tables latest earlier =>
        obtain ⟨last, before⟩ := List.forall_mem_cons.mp (distinct_tables.mp kept)
        refine distinct.put_changed (fun _ made => ?_) done
        exact distinct_tables.mpr (List.forall_mem_cons.mpr ⟨ih _ _ _ last made, before⟩)

theorem keepsDistinct_openTable (key : String) : KeepsDistinct (Tree.openTable key) := by
  intro entries changed distinct done
  unfold Tree.openTable at done
  split at done
  · cases done
    exact distinct.put key (distinct_table.mpr distinct_nil)
  · rename_i inner held
    cases done
    exact distinct.put key (distinct_table.mpr (distinct_table.mp (distinct.lookup held)))
  · cases done

theorem keepsDistinct_openItem (key : String) : KeepsDistinct (Tree.openItem key) := by
  intro entries changed distinct done
  unfold Tree.openItem at done
  split at done
  · cases done
    exact distinct.put key (distinct_tables.mpr (by simpa using distinct_nil))
  · rename_i latest earlier held
    cases done
    have kept := distinct_tables.mp (distinct.lookup held)
    exact distinct.put key (distinct_tables.mpr (List.forall_mem_cons.mpr ⟨distinct_nil, kept⟩))
  · cases done

theorem keepsDistinct_assignHere {setting : Setting} (inner : setting.Distinct) (path : KeyPath) :
    KeepsDistinct (Tree.assignHere path setting) :=
  keepsDistinct_assign inner path.last path.parents .dotted

end Changes

section Settled

theorem toSettings_distinct_of {entries : Entries} (distinct : DistinctEntries entries)
    (each : ∀ e ∈ entries, (Tree.toSetting e.2).Distinct) :
    Settings.Distinct (Tree.toSettings entries) where
  keys := by
    rw [Tree.toSettings_eq_map, List.map_map]
    exact distinct.keys
  each e member := by
    rw [Tree.toSettings_eq_map] at member
    obtain ⟨e, listed, rfl⟩ := List.mem_map.mp member
    exact each e listed

theorem mem_tablesToSettings {earlier : List Entries} {later : List Setting} {s : Setting}
    (member : s ∈ Tree.tablesToSettings earlier later) :
    s ∈ later ∨ ∃ entries ∈ earlier, s = .table (Tree.toSettings entries) := by
  induction earlier generalizing later with
  | nil => exact .inl member
  | cons entries earlier ih =>
    rcases ih member with kept | ⟨others, listed, same⟩
    · rcases List.mem_cons.mp kept with rfl | last
      · exact .inr ⟨entries, List.mem_cons_self, rfl⟩
      · exact .inl last
    · exact .inr ⟨others, List.mem_cons_of_mem _ listed, same⟩

theorem toSetting_distinct {tree : Tree} (distinct : tree.Distinct) :
    (Tree.toSetting tree).Distinct := by
  induction distinct with
  | value inner => exact inner
  | table keys each ih =>
    exact Setting.distinct_table.mpr (toSettings_distinct_of ⟨keys, each⟩ ih)
  | @tables latest earlier keys each ih =>
    refine .list fun s member => ?_
    have settled (entries : Entries) (listed : entries ∈ latest :: earlier) :
        (Setting.table (Tree.toSettings entries)).Distinct :=
      Setting.distinct_table.mpr
        (toSettings_distinct_of ⟨keys entries listed, each entries listed⟩ (ih entries listed))
    rcases mem_tablesToSettings member with last | ⟨entries, listed, rfl⟩
    · exact List.mem_singleton.mp last ▸ settled latest List.mem_cons_self
    · exact settled entries (List.mem_cons_of_mem _ listed)

theorem toSettings_distinct {entries : Entries} (distinct : DistinctEntries entries) :
    Settings.Distinct (Tree.toSettings entries) :=
  toSettings_distinct_of distinct fun e member => toSetting_distinct (distinct.each e member)

theorem foldlM_keeps {α σ : Type} {P : σ → Prop} {step : σ → α → Option σ} {as : List α}
    (keeps : ∀ a ∈ as, ∀ s t, P s → step s a = some t → P t) {s t : σ} (holds : P s)
    (done : as.foldlM step s = some t) : P t := by
  induction as generalizing s with
  | nil =>
    cases done
    exact holds
  | cons a as ih =>
    obtain ⟨first, others⟩ := List.forall_mem_cons.mp keeps
    obtain ⟨next, made, rest⟩ := Option.bind_eq_some_iff.mp done
    exact ih others (first _ _ holds made) rest

theorem ofAssignments?_distinct {pairs : List (KeyPath × Setting)} {s : Settings}
    (each : ∀ p ∈ pairs, p.2.Distinct) (made : Tree.ofAssignments? pairs = some s) :
    s.Distinct := by
  obtain ⟨entries, built, same⟩ := Option.bind_eq_some_iff.mp made
  cases same
  exact toSettings_distinct (foldlM_keeps
    (fun p member => keepsDistinct_assignHere (each p member) p.1) distinct_nil built)

end Settled

section Statements

theorem scalar_distinct : Yields Setting.Distinct scalar := by
  refine yields_orElse (yields_map fun cs s rest read => .text s) ?_
  refine yields_orElse (yields_after fun _ => yields_pure ?_) ?_
  · exact .table (List.nodup_singleton _) (by simpa using .text "")
  refine yields_orElse (yields_after fun _ => yields_pure .number) ?_
  exact yields_orElse (yields_after fun _ => yields_pure (.flag true))
    (yields_after fun _ => yields_pure (.flag false))

theorem items_distinct {value : Scanner Setting} (each : Yields Setting.Distinct value) :
    Yields (fun items => ∀ s ∈ items, s.Distinct) (items value) := by
  have item : Yields Setting.Distinct (do space; let v ← value; space; return v) :=
    yields_after fun _ => yields_bind each fun _ inner => yields_after fun _ => yields_pure inner
  refine yields_after fun _ => yields_after fun _ =>
    yields_bind (yields_optional (yields_sepBy item)) fun found inner => ?_
  have returned : ∀ s ∈ found.getD [], s.Distinct := by
    cases found with
    | none => exact List.forall_mem_nil _
    | some items => exact inner items rfl
  have closed : Yields (fun items => ∀ s ∈ items, s.Distinct)
      (do space; char ']'; return found.getD []) :=
    yields_after fun _ => yields_after fun _ => yields_pure returned
  cases found with
  | none => exact closed
  | some items => exact yields_after fun _ => closed

theorem pairs_distinct {value : Scanner Setting} (each : Yields Setting.Distinct value) :
    Yields (fun pairs => ∀ p ∈ pairs, p.2.Distinct) (pairs value) := by
  have pair : Yields (fun p : KeyPath × Setting => p.2.Distinct)
      (do let path ← key; char '='; blanks; let v ← value; blanks; return (path, v)) :=
    yields_after fun _ => yields_after fun _ => yields_after fun _ =>
      yields_bind each fun _ inner => yields_after fun _ => yields_pure inner
  refine yields_after fun _ => yields_bind (yields_optional (yields_sepBy pair)) fun found inner => ?_
  refine yields_after fun _ => yields_after fun _ => yields_pure ?_
  cases found with
  | none => exact List.forall_mem_nil _
  | some pairs => exact inner pairs rfl

theorem value_distinct (depth : Nat) : Yields Setting.Distinct (value depth) := by
  induction depth with
  | zero => exact scalar_distinct
  | succ depth ih =>
    refine yields_orElse scalar_distinct (yields_orElse ?_ ?_)
    · refine yields_map fun cs items rest read => .list ?_
      exact items_distinct ih cs items rest read
    · refine yields_bind (pairs_distinct ih) fun pairs each => ?_
      cases made : Tree.ofAssignments? pairs with
      | none => exact yields_failure
      | some entries =>
        exact yields_pure (Setting.distinct_table.mpr (ofAssignments?_distinct each made))

def Statement.Distinct : Statement → Prop
  | .assign _ v => v.Distinct
  | _ => True

theorem readLine_distinct :
    Yields (fun read => ∀ statement ∈ read, Statement.Distinct statement) Statement.readLine := by
  have headed : Yields Statement.Distinct Statement.header := by
    refine yields_orElse ?_ ?_ <;>
      exact yields_after fun _ => yields_after fun _ => yields_after fun _ => yields_pure trivial
  have assigned : Yields Statement.Distinct Statement.assignment :=
    yields_after fun _ => yields_after fun _ => yields_after fun _ =>
      yields_bind (value_distinct maxDepth) fun _ inner => yields_pure inner
  exact yields_after fun _ => yields_bind (yields_optional (yields_orElse headed assigned))
    fun _ each => yields_after fun _ => yields_pure each

theorem readAll_distinct {document : String} {statements : List Statement}
    (read : Statement.readAll document = some statements) : ∀ s ∈ statements, s.Distinct := by
  have kept (found : List (Option Statement))
      (each : ∀ line ∈ found, ∀ s ∈ line, Statement.Distinct s) :
      ∀ s ∈ found.filterMap id, s.Distinct := by
    intro s member
    obtain ⟨line, listed, same⟩ := List.mem_filterMap.mp member
    exact each line listed s same
  exact yields_readAll (P := fun ss => ∀ s ∈ ss, Statement.Distinct s)
    (yields_after fun _ => yields_bind (yields_many readLine_distinct)
      fun found each => yields_pure (kept found each)) read

end Statements

theorem step_distinct {p q : Progress} {statement : Statement} (inner : statement.Distinct)
    (distinct : DistinctEntries p.entries) (done : p.step statement = some q) :
    DistinctEntries q.entries := by
  have entered {path : KeyPath} {change : String → Entries → Option Entries}
      (keeps : KeepsDistinct (change path.last)) (done : p.enter path change = some q) :
      DistinctEntries q.entries := by
    obtain ⟨entries, made, same⟩ := Option.bind_eq_some_iff.mp done
    cases same
    exact keepsDistinct_alongHeaders keeps path.parents _ _ distinct made
  cases statement with
  | table path => exact entered (keepsDistinct_openTable path.last) done
  | item path => exact entered (keepsDistinct_openItem path.last) done
  | assign path value =>
    obtain ⟨entries, made, same⟩ := Option.bind_eq_some_iff.mp done
    cases same
    exact keepsDistinct_alongHeaders (keepsDistinct_assignHere inner path) p.current _ _ distinct made

theorem read_distinct {document : String} {s : Settings} (read : Toml.read document = some s) :
    s.Distinct := by
  obtain ⟨statements, parsed, built⟩ := Option.bind_eq_some_iff.mp read
  obtain ⟨finished, folded, same⟩ := Option.bind_eq_some_iff.mp built
  cases same
  have start : DistinctEntries Progress.start.entries := distinct_nil
  exact toSettings_distinct (foldlM_keeps (P := fun p => DistinctEntries p.entries)
    (fun s member _ _ held done => step_distinct (readAll_distinct parsed s member) held done)
    start folded)

end SimdDispatch.Toml

namespace SimdDispatch

theorem Settings.map_uncarried {s t : Settings} (done : Settings.uncarried? s = some t) :
    t.map (·.1) = s.map (·.1) := by
  induction s generalizing t with
  | nil =>
    rw [Settings.uncarried?] at done
    cases done
    rfl
  | cons e s ih =>
    simp only [Settings.uncarried?, Option.bind_eq_bind, Option.pure_def, Option.bind_eq_some_iff,
      Option.some.injEq] at done
    obtain ⟨new, -, others, following, rfl⟩ := done
    rw [List.map_cons, List.map_cons, ih following]

mutual

theorem Setting.distinct_uncarried : ∀ {s t : Setting}, s.Distinct → s.uncarried? = some t →
    t.Distinct
  | .flag b, t, distinct, done => by
    simp only [Setting.uncarried?] at done
    cases done
    exact distinct
  | .number, t, distinct, done => by
    simp only [Setting.uncarried?] at done
    cases done
    exact distinct
  | .text s, t, distinct, done => by
    simp only [Setting.uncarried?] at done
    cases done
    exact distinct
  | .list items, t, distinct, done => by
    cases distinct with
    | list each =>
      rw [Setting.uncarried?] at done
      obtain ⟨new, made, rfl⟩ := Option.map_eq_some_iff.mp done
      exact .list (Setting.distinct_allUncarried each made)
  | .table entries, t, distinct, done => by
    rw [Setting.uncarried?] at done
    obtain ⟨inner, made, settled⟩ := Option.bind_eq_some_iff.mp done
    have kept := Settings.distinct_uncarried (Setting.distinct_table.mp distinct) made
    split at settled
    · cases settled
    · obtain rfl := Option.some.inj settled
      cases carried : inner.lookup carriedKey with
      | none => exact Setting.distinct_table.mpr kept
      | some v => exact kept.of_lookup carried

theorem Settings.distinct_uncarried : ∀ {s t : Settings}, s.Distinct →
    Settings.uncarried? s = some t → t.Distinct
  | [], t, distinct, done => by
    rw [Settings.uncarried?] at done
    cases done
    exact distinct
  | (key, value) :: rest, t, distinct, done => by
    simp only [Settings.uncarried?, Option.bind_eq_bind, Option.pure_def, Option.bind_eq_some_iff,
      Option.some.injEq] at done
    obtain ⟨new, changed, others, following, rfl⟩ := done
    have first := Setting.distinct_uncarried (distinct.each _ List.mem_cons_self) changed
    have later := Settings.distinct_uncarried distinct.tail following
    refine ⟨?_, List.forall_mem_cons.mpr ⟨first, later.each⟩⟩
    rw [List.map_cons, Settings.map_uncarried following]
    exact distinct.keys

theorem Setting.distinct_allUncarried : ∀ {items new : List Setting}, (∀ s ∈ items, s.Distinct) →
    Setting.allUncarried? items = some new → ∀ s ∈ new, s.Distinct
  | [], new, each, done => by
    rw [Setting.allUncarried?] at done
    cases done
    exact each
  | item :: rest, new, each, done => by
    simp only [Setting.allUncarried?, Option.bind_eq_bind, Option.pure_def, Option.bind_eq_some_iff,
      Option.some.injEq] at done
    obtain ⟨first, changed, others, following, rfl⟩ := done
    obtain ⟨inner, remaining⟩ := List.forall_mem_cons.mp each
    exact List.forall_mem_cons.mpr ⟨Setting.distinct_uncarried inner changed,
      Setting.distinct_allUncarried remaining following⟩

end

/-- The settings that a document holds have keys that differ from each other. -/
theorem Config.settingsOf_distinct {document : String} {s : Settings}
    (held : settingsOf document = .ok s) : s.Distinct := by
  rw [settingsOf_eq] at held
  cases read : Toml.read document >>= Settings.uncarried? with
  | none =>
    rw [read] at held
    cases held
  | some t =>
    rw [read] at held
    cases held
    obtain ⟨raw, parsed, replaced⟩ := Option.bind_eq_some_iff.mp read
    exact Settings.distinct_uncarried (Toml.read_distinct parsed) replaced

end SimdDispatch
