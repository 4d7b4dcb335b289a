import Mathlib.Data.List.TakeWhile
import SimdDispatch.Scanner

/-!
What scanners read of a text whose start is known. A repetition reads a chain of items, each of
which takes a character at least, up to the place where no further item can be read.
-/
namespace SimdDispatch.Scanner

variable {α β : Type}

section Sequence

variable {p q : Scanner α} {cs mid rest : List Char} {a : α}

theorem bind_some (read : p cs = some (a, mid)) (next : α → Scanner β) :
    (p >>= next) cs = next a mid := by
  change (p cs).bind (fun (a, mid) => next a mid) = _
  rw [read]
  rfl

theorem bind_none (failed : p cs = none) (next : α → Scanner β) : (p >>= next) cs = none := by
  change (p cs).bind (fun (a, mid) => next a mid) = _
  rw [failed]
  rfl

theorem bind_congr (same : p cs = q cs) (next : α → Scanner β) : (p >>= next) cs = (q >>= next) cs := by
  change (p cs).bind (fun (a, mid) => next a mid) = (q cs).bind _
  rw [same]

theorem map_some (read : p cs = some (a, rest)) (f : α → β) : (f <$> p) cs = some (f a, rest) :=
  bind_some read fun a => pure (f a)

theorem map_none (failed : p cs = none) (f : α → β) : (f <$> p) cs = none :=
  bind_none failed fun a => pure (f a)

theorem discard_some (read : p cs = some (a, rest)) :
    (discard p : Scanner Unit) cs = some ((), rest) := map_some read _

theorem discard_none (failed : p cs = none) : (discard p : Scanner Unit) cs = none :=
  map_none failed _

theorem orElse_some (read : p cs = some (a, rest)) : (p <|> q) cs = some (a, rest) := by
  change (p cs <|> q cs) = _
  rw [read]
  rfl

theorem orElse_none (failed : p cs = none) : (p <|> q) cs = q cs := by
  change (p cs <|> q cs) = _
  rw [failed]
  rfl

theorem optional_some (read : p cs = some (a, rest)) :
    (optional p : Scanner (Option α)) cs = some (some a, rest) := orElse_some (map_some read some)

theorem optional_none (failed : p cs = none) :
    (optional p : Scanner (Option α)) cs = some (none, cs) := orElse_none (map_none failed some)

end Sequence

section Characters

variable {p : Char → Bool} {c : Char} {cs xs rest : List Char}

theorem satisfy_some (holds : p c = true) (rest : List Char) :
    satisfy p (c :: rest) = some (c, rest) := if_pos holds

theorem satisfy_none (fails : ∀ c ∈ cs.head?, p c = false) : satisfy p cs = none := by
  cases cs with
  | nil => rfl
  | cons c rest => exact if_neg (by simp [fails c rfl])

theorem char_some (c : Char) (rest : List Char) : char c (c :: rest) = some ((), rest) :=
  discard_some (satisfy_some (beq_self_eq_true c) rest)

theorem char_none (other : ∀ d ∈ cs.head?, d ≠ c) : char c cs = none :=
  discard_none (satisfy_none fun d head => beq_false_of_ne (other d head))

theorem takeWhile_some (all : ∀ c ∈ xs, p c = true) (stop : ∀ c ∈ rest.head?, p c = false) :
    takeWhile p (xs ++ rest) = some (xs, rest) := by
  have taken : rest.takeWhile p = [] ∧ rest.dropWhile p = rest := by
    cases rest with
    | nil => exact ⟨rfl, rfl⟩
    | cons c rest => simp [stop c rfl]
  rw [takeWhile, List.takeWhile_append_of_pos all, List.dropWhile_append_of_pos all, taken.1,
    taken.2, List.append_nil]

theorem skipWhile_some (all : ∀ c ∈ xs, p c = true) (stop : ∀ c ∈ rest.head?, p c = false) :
    skipWhile p (xs ++ rest) = some ((), rest) := discard_some (takeWhile_some all stop)

theorem skipWhile_none (stop : ∀ c ∈ cs.head?, p c = false) : skipWhile p cs = some ((), cs) :=
  discard_some (takeWhile_some (List.forall_mem_nil _) stop)

theorem takeSome_some (occupied : xs ≠ []) (all : ∀ c ∈ xs, p c = true)
    (stop : ∀ c ∈ rest.head?, p c = false) : takeSome p (xs ++ rest) = some (xs, rest) := by
  cases xs with
  | nil => exact absurd rfl occupied
  | cons c xs =>
    obtain ⟨first, others⟩ := List.forall_mem_cons.mp all
    rw [takeSome, List.cons_append, bind_some (satisfy_some first _),
      bind_some (takeWhile_some others stop)]
    rfl

theorem takeSome_none (fails : ∀ c ∈ cs.head?, p c = false) : takeSome p cs = none :=
  bind_none (satisfy_none fails) _

end Characters

section Repetition

variable {p : Scanner α}

/-- Items read one after the other, each from what the one before left. -/
inductive Steps (p : Scanner α) : List Char → List α → List Char → Prop
  | nil (cs : List Char) : Steps p cs [] cs
  | cons {cs mid rest : List Char} {a : α} {as : List α} (read : p cs = some (a, mid))
      (shorter : mid.length < cs.length) (others : Steps p mid as rest) : Steps p cs (a :: as) rest

theorem Steps.append {cs mid rest : List Char} {as bs : List α} (first : Steps p cs as mid)
    (second : Steps p mid bs rest) : Steps p cs (as ++ bs) rest := by
  induction first with
  | nil => exact second
  | cons read shorter _ ih => exact .cons read shorter (ih second)

theorem Steps.upTo {cs mid : List Char} {as : List α} (steps : Steps p cs as mid) :
    ∀ {fuel : List Char}, cs.length ≤ fuel.length →
      ∃ left, upTo p fuel cs = (as ++ (upTo p left mid).1, (upTo p left mid).2) := by
  induction steps with
  | nil cs => exact fun {fuel} _ => ⟨fuel, rfl⟩
  | cons read shorter _ ih =>
    intro fuel enough
    cases fuel with
    | nil => exact absurd (Nat.lt_of_lt_of_le shorter enough) (Nat.not_lt_zero _)
    | cons c fuel =>
      have remaining : _ ≤ fuel.length := Nat.le_of_lt_succ (Nat.lt_of_lt_of_le shorter enough)
      obtain ⟨left, stepped⟩ := ih remaining
      exact ⟨left, by simp only [Scanner.upTo, read, stepped, List.cons_append]⟩

theorem upTo_none {cs : List Char} (stop : p cs = none) (fuel : List Char) :
    upTo p fuel cs = ([], cs) := by
  cases fuel with
  | nil => rfl
  | cons c fuel => simp only [upTo, stop]

theorem many_some {cs mid : List Char} {as : List α} (steps : Steps p cs as mid)
    (stop : p mid = none) : many p cs = some (as, mid) := by
  obtain ⟨left, stepped⟩ := steps.upTo (Nat.le_refl cs.length)
  rw [many, stepped, upTo_none stop, List.append_nil]

theorem sepBy_some {separator : Scanner Unit} {cs mid rest : List Char} {a : α} {as : List α}
    (first : p cs = some (a, mid))
    (others : Steps (do separator; p) mid as rest) (stop : (do separator; p) rest = none) :
    sepBy p separator cs = some (a :: as, rest) := by
  rw [sepBy, bind_some first, bind_some (many_some others stop)]
  rfl

end Repetition

theorem readAll_some {p : Scanner α} {s : String} {a : α} (read : p s.toList = some (a, [])) :
    readAll p s = some a := by
  have whole : (do let a ← p; finished; return a : Scanner α) s.toList = some (a, []) := by
    rw [bind_some read]
    rfl
  change Option.map _ ((do let a ← p; finished; return a : Scanner α) s.toList) = _
  rw [whole]
  rfl

section Yield

variable {p q : Scanner α} {P : α → Prop} {R : β → Prop}

/-- Whatever a scanner reads has a property. -/
def Yields (P : α → Prop) (p : Scanner α) : Prop := ∀ cs a rest, p cs = some (a, rest) → P a

theorem bind_eq_some {next : α → Scanner β} {cs rest : List Char} {b : β}
    (read : (p >>= next) cs = some (b, rest)) :
    ∃ a mid, p cs = some (a, mid) ∧ next a mid = some (b, rest) := by
  change (p cs).bind (fun (a, mid) => next a mid) = _ at read
  obtain ⟨⟨a, mid⟩, first, second⟩ := Option.bind_eq_some_iff.mp read
  exact ⟨a, mid, first, second⟩

theorem yields_pure {a : α} (holds : P a) : Yields P (pure a) := by
  intro cs b rest read
  cases read
  exact holds

theorem yields_failure : Yields P failure := by
  intro cs a rest read
  cases read

theorem yields_bind {next : α → Scanner β} (first : Yields P p)
    (second : ∀ a, P a → Yields R (next a)) : Yields R (p >>= next) := by
  intro cs b rest read
  obtain ⟨a, mid, earlier, later⟩ := bind_eq_some read
  exact second a (first cs a mid earlier) mid b rest later

theorem yields_after {next : α → Scanner β} (second : ∀ a, Yields R (next a)) :
    Yields R (p >>= next) := by
  intro cs b rest read
  obtain ⟨a, mid, -, later⟩ := bind_eq_some read
  exact second a mid b rest later

theorem yields_map {f : α → β} (each : Yields (fun a => R (f a)) p) : Yields R (f <$> p) :=
  yields_bind each fun _ holds => yields_pure holds

theorem yields_orElse (first : Yields P p) (second : Yields P q) : Yields P (p <|> q) := by
  intro cs a rest read
  cases tried : p cs with
  | none => exact second cs a rest ((orElse_none tried).symm.trans read)
  | some found =>
    obtain ⟨b, mid⟩ := found
    rw [orElse_some tried] at read
    obtain ⟨rfl, rfl⟩ := Prod.mk.inj (Option.some.inj read)
    exact first cs _ _ tried

theorem yields_optional (each : Yields P p) : Yields (fun o => ∀ a ∈ o, P a) (optional p) := by
  refine yields_orElse (yields_map fun cs a rest read b same => ?_) (yields_pure (by simp))
  cases same
  exact each cs a rest read

theorem upTo_yields (each : Yields P p) (fuel cs : List Char) : ∀ a ∈ (upTo p fuel cs).1, P a := by
  induction fuel generalizing cs with
  | nil => exact List.forall_mem_nil _
  | cons c fuel ih =>
    rw [upTo]
    cases read : p cs with
    | none => exact List.forall_mem_nil _
    | some found =>
      obtain ⟨a, rest⟩ := found
      exact List.forall_mem_cons.mpr ⟨each cs a rest read, ih rest⟩

theorem yields_many (each : Yields P p) : Yields (fun as => ∀ a ∈ as, P a) (many p) := by
  intro cs as rest read
  have found : (upTo p cs cs).1 = as := congrArg Prod.fst (Option.some.inj read)
  exact found ▸ upTo_yields each cs cs

theorem yields_sepBy {separator : Scanner Unit} (each : Yields P p) :
    Yields (fun as => ∀ a ∈ as, P a) (sepBy p separator) :=
  yields_bind each fun _ first =>
    yields_bind (yields_many (yields_after fun _ => each)) fun _ others =>
      yields_pure (List.forall_mem_cons.mpr ⟨first, others⟩)

theorem yields_readAll {s : String} {a : α} (each : Yields P p) (read : readAll p s = some a) :
    P a := by
  obtain ⟨⟨b, rest⟩, whole, same⟩ := Option.map_eq_some_iff.mp read
  obtain ⟨found, mid, first, finish⟩ := bind_eq_some whole
  obtain ⟨-, last, -, returned⟩ := bind_eq_some finish
  obtain ⟨rfl, -⟩ := Prod.mk.inj (Option.some.inj returned)
  exact same ▸ each _ found mid first

end Yield

end SimdDispatch.Scanner
