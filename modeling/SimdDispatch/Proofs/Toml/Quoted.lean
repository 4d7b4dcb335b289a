import SimdDispatch.Proofs.Scanner
import SimdDispatch.Toml.Quoted

/-!
Quoted texts and keys are read as they were written. Each kind of quotes is read back by its own
reader, and the kind that is chosen for a text is one that can hold it.
-/
namespace SimdDispatch.Toml

open Scanner

section Characters

variable {p : Char → Bool}

theorem satisfy_times {xs : List Char} (all : ∀ x ∈ xs, p x = true) (rest : List Char) :
    ((List.replicate xs.length ()).mapM fun _ => satisfy p) (xs ++ rest) = some (xs, rest) := by
  induction xs with
  | nil => rfl
  | cons x xs ih =>
    obtain ⟨first, others⟩ := List.forall_mem_cons.mp all
    rw [List.length_cons, List.replicate_succ, List.mapM_cons, List.cons_append,
      bind_some (satisfy_some first _), bind_some (ih others)]
    rfl

theorem hexEscape_four {n : Nat} (low : n < 128) (rest : List Char) :
    hexEscape 4 ((Text.fourHexDigits n).map Char.toUpper ++ rest) = some (Char.ofNat n, rest) := by
  have digits : ∀ n < 128, ((Text.fourHexDigits n).map Char.toUpper).length = 4 ∧
      ((Text.fourHexDigits n).map Char.toUpper).all Text.isHexDigit = true ∧
      Text.scalar? (Text.hexNumber ((Text.fourHexDigits n).map Char.toUpper)) =
        some (Char.ofNat n) := by decide
  obtain ⟨four, hex, value⟩ := digits n low
  have read := satisfy_times (List.all_eq_true.mp hex) rest
  rw [four] at read
  rw [hexEscape, bind_some read]
  simp only [value]
  rfl

theorem escape?_head {c : Char} {e : List Char} (written : escape? c = some e) :
    e.head? = some '\\' := by
  unfold escape? at written
  repeat' split at written
  all_goals cases written
  all_goals rfl

theorem escaped_escape? {c : Char} {e : List Char} (written : escape? c = some e)
    (rest : List Char) : escaped (e ++ rest) = some (c, rest) := by
  unfold escape? at written
  repeat' split at written
  case isFalse => cases written
  case isTrue control =>
    cases written
    have low : c.toNat < 128 := by
      simp only [isControl, Bool.or_eq_true, decide_eq_true_eq, beq_iff_eq] at control
      omega
    have read := hexEscape_four low rest
    rw [Char.ofNat_toNat] at read
    exact read
  all_goals cases written
  all_goals rfl

/-- A character that is written as it is stands for itself where escapes are read. -/
theorem isVerbatim_of_escape?_none {q : Quotes} (escapes : q.hasEscapes = true) {c : Char}
    (plain : escape? c = none) (other : c ≠ '"') : isVerbatim q c = true := by
  unfold escape? at plain
  repeat' split at plain
  all_goals try cases plain
  rename_i backslash control
  have allowed : isControl c = false := by simpa using control
  have different : c ≠ '\\' := backslash
  simp [isVerbatim, escapes, isForbidden, allowed, other, different]

end Characters

section Pieces

variable {q : Quotes} (escapes : q.hasEscapes = true)
include escapes

theorem linePiece_backslash (rest : List Char) :
    linePiece q ('\\' :: rest) = (List.singleton <$> escaped) ('\\' :: rest) := by
  have unlike : satisfy (isVerbatim q) ('\\' :: rest) = none :=
    satisfy_none fun x head => by
      cases head
      simp [isVerbatim, escapes]
  rw [linePiece, if_pos escapes]
  change ((satisfy (isVerbatim q) <|> escaped) >>= fun c => pure (List.singleton c)) _ = _
  rw [Scanner.bind_congr (orElse_none unlike)]
  rfl

theorem linePiece_escape {c : Char} (other : c ≠ '"') (rest : List Char) :
    linePiece q ((escape? c).getD [c] ++ rest) = some ([c], rest) := by
  cases written : escape? c with
  | none =>
    have verbatim := isVerbatim_of_escape?_none escapes written other
    exact map_some (orElse_some (satisfy_some verbatim rest)) _
  | some e =>
    obtain ⟨e', rfl⟩ : ∃ e', e = '\\' :: e' := by
      have head := escape?_head written
      cases e with
      | nil => cases head
      | cons d e' => cases head; exact ⟨e', rfl⟩
    rw [Option.getD_some, List.cons_append, linePiece_backslash escapes]
    exact map_some (escaped_escape? written rest) _

theorem linePiece_escaped_quote (rest : List Char) :
    linePiece q ('\\' :: '"' :: rest) = some (['"'], rest) := by
  rw [linePiece_backslash escapes]
  rfl

end Pieces

section Line

variable {q : Quotes} {s rest : List Char}

theorem escapeAll_cons {lines : Bool} {allowed run : Nat} {c : Char} (other : c ≠ '"') :
    escapeAll lines allowed run (c :: s) =
      (if lines && c == '\n' then [c] else (escape? c).getD [c]) ++ escapeAll lines allowed 0 s := by
  rw [escapeAll]
  exact other

theorem length_lt_append {xs : List Char} (occupied : xs ≠ []) (ys : List Char) :
    ys.length < (xs ++ ys).length := by
  rw [List.length_append]
  have := List.length_pos_iff.mpr occupied
  omega

theorem getD_escape?_ne_nil (c : Char) : (escape? c).getD [c] ≠ [] := by
  cases written : escape? c with
  | none => simp
  | some e =>
    have head := escape?_head written
    rintro rfl
    cases head

theorem steps_basic (s rest : List Char) :
    Steps (linePiece .basic) (escapeAll false 0 0 s ++ rest) (s.map List.singleton) rest := by
  induction s with
  | nil => exact .nil rest
  | cons c s ih =>
    by_cases quote : c = '"'
    · subst quote
      have written : escapeAll false 0 0 ('"' :: s) = '\\' :: '"' :: escapeAll false 0 0 s := rfl
      rw [written]
      exact .cons (linePiece_escaped_quote rfl _)
        (Nat.lt_add_of_pos_right Nat.two_pos) ih
    · rw [escapeAll_cons quote, List.append_assoc]
      exact .cons (linePiece_escape rfl quote _) (length_lt_append (getD_escape?_ne_nil c) _) ih

theorem steps_literal (verbatim : ∀ c ∈ s, isVerbatim .literal c = true) (rest : List Char) :
    Steps (linePiece .literal) (s ++ rest) (s.map List.singleton) rest := by
  induction s with
  | nil => exact .nil rest
  | cons c s ih =>
    obtain ⟨first, others⟩ := List.forall_mem_cons.mp verbatim
    exact .cons (map_some (orElse_some (satisfy_some first _)) _) (by simp) (ih others)

theorem flatten_singletons (s : List Char) : (s.map List.singleton).flatten = s := by
  induction s with
  | nil => rfl
  | cons c s ih => simp [List.singleton, ih]

theorem line_some {q : Quotes} {c : Char} {written : List Char}
    (steps : ∀ rest, Steps (linePiece q) (written ++ rest) (s.map List.singleton) rest)
    (stop : ∀ rest, linePiece q (c :: rest) = none) (rest : List Char) :
    line q c (c :: (written ++ c :: rest)) = some (s, rest) := by
  rw [line, bind_some (char_some c _), bind_some (many_some (steps _) (stop rest)),
    bind_some (char_some c rest), flatten_singletons]
  rfl

theorem line_basic (s rest : List Char) :
    line .basic '"' (write .basic s ++ rest) = some (s, rest) := by
  have read := line_some (q := .basic) (c := '"') (steps_basic s) (fun _ => rfl) rest
  simpa [write, Quotes.mark, Quotes.hasLines, Quotes.hasEscapes] using read

theorem line_literal (verbatim : ∀ c ∈ s, isVerbatim .literal c = true) (rest : List Char) :
    line .literal '\'' (write .literal s ++ rest) = some (s, rest) := by
  have read := line_some (q := .literal) (c := '\'') (steps_literal verbatim) (fun _ => rfl) rest
  simpa [write, Quotes.mark, Quotes.hasLines, Quotes.hasEscapes] using read

end Line

/-- The two kinds of quotes for texts of several lines, with the mark that is written three times. -/
inductive Tripled : Quotes → Char → Prop
  | basic : Tripled .basicLines '"'
  | literal : Tripled .literalLines '\''

/-- What may stand between tripled quotes for a text: characters as they are read one by one, and
the quote itself at most twice in a row. -/
inductive Body (q : Quotes) (c : Char) : List Char → List Char → Prop
  | nil : Body q c [] []
  | char {written t s : List Char} {d : Char} (head : ∀ x ∈ written.head?, x ≠ c)
      (occupied : written ≠ []) (reads : ∀ rest, linesPiece q c (written ++ rest) = some ([d], rest))
      (others : Body q c t s) : Body q c (written ++ t) (d :: s)
  | quotes {n : Nat} {t s : List Char} (few : n = 1 ∨ n = 2) (apart : ∀ x ∈ t.head?, x ≠ c)
      (others : Body q c t s) : Body q c (List.replicate n c ++ t) (List.replicate n c ++ s)

section Lines

variable {q : Quotes} {c : Char} {t s rest : List Char}

theorem Body.eq_nil (body : Body q c [] s) : s = [] := by
  generalize empty : ([] : List Char) = t at body
  cases body with
  | nil => rfl
  | char head occupied reads others =>
    exact absurd (List.append_eq_nil_iff.mp empty.symm).1 occupied
  | quotes few apart others =>
    rcases few with rfl | rfl <;> cases empty

theorem takeSome_quotes {n : Nat} (positive : n ≠ 0) (apart : ∀ x ∈ rest.head?, x ≠ c) :
    takeSome (· == c) (List.replicate n c ++ rest) = some (List.replicate n c, rest) := by
  refine takeSome_some (by simpa using positive) (fun x member => ?_) fun x head => ?_
  · simpa using List.eq_of_mem_replicate member
  · simpa using apart x head

theorem linesPiece_quotes (tripled : Tripled q c) {n : Nat} (positive : n ≠ 0) (rest : List Char) :
    linesPiece q c (List.replicate n c ++ rest) = innerQuotes c (List.replicate n c ++ rest) := by
  obtain ⟨m, rfl⟩ := Nat.exists_eq_succ_of_ne_zero positive
  rw [List.replicate_succ, List.cons_append]
  cases tripled with
  | basic => exact orElse_none rfl
  | literal => exact orElse_none rfl

theorem innerQuotes_some {n : Nat} (few : n = 1 ∨ n = 2) (apart : ∀ x ∈ rest.head?, x ≠ c)
    (more : rest ≠ []) :
    innerQuotes c (List.replicate n c ++ rest) = some (List.replicate n c, rest) := by
  rw [innerQuotes, bind_some (takeSome_quotes (by omega) apart)]
  cases rest with
  | nil => exact absurd rfl more
  | cons x rest => rcases few with rfl | rfl <;> rfl

theorem innerQuotes_none {n : Nat} (many : 2 < n) (apart : ∀ x ∈ rest.head?, x ≠ c) :
    innerQuotes c (List.replicate n c ++ rest) = none := by
  rw [innerQuotes, bind_some (takeSome_quotes (by omega) apart)]
  have long : ¬ n ≤ 2 := by omega
  simp only [List.length_replicate, long, decide_false, Bool.false_and, Bool.false_eq_true, if_false]
  rfl

theorem closingQuotes_some {n : Nat} (few : n ≤ 2) (apart : ∀ x ∈ rest.head?, x ≠ c) :
    closingQuotes c (List.replicate (n + 3) c ++ rest) = some (List.replicate n c, rest) := by
  rw [closingQuotes, bind_some (takeSome_quotes (by omega) apart)]
  have held : (decide (3 ≤ n + 3) && decide (n + 3 ≤ 5)) = true := by simpa using few
  rw [List.length_replicate, if_pos held, List.drop_replicate, Nat.add_sub_cancel]
  rfl

/-- Up to two quotes in front of the closing ones are no piece of their own: all are read at once. -/
theorem stops_at_closing (tripled : Tripled q c) {n : Nat} (few : n ≤ 2)
    (apart : ∀ x ∈ rest.head?, x ≠ c) :
    linesPiece q c (List.replicate n c ++ (List.replicate 3 c ++ rest)) = none ∧
      closingQuotes c (List.replicate n c ++ (List.replicate 3 c ++ rest)) =
        some (List.replicate n c, rest) := by
  rw [← List.append_assoc, List.replicate_append_replicate, linesPiece_quotes tripled (by omega)]
  exact ⟨innerQuotes_none (by omega) apart, closingQuotes_some few apart⟩

/-- The pieces of a body are read up to the closing quotes, which keep what belongs to the text. -/
theorem Body.reads (tripled : Tripled q c) (body : Body q c t s)
    (apart : ∀ x ∈ rest.head?, x ≠ c) :
    ∃ pieces tail more, many (linesPiece q c) (t ++ (List.replicate 3 c ++ rest)) =
        some (pieces, tail) ∧
      closingQuotes c tail = some (more, rest) ∧ pieces.flatten ++ more = s := by
  suffices chain : ∃ pieces tail more,
      Steps (linesPiece q c) (t ++ (List.replicate 3 c ++ rest)) pieces tail ∧
        linesPiece q c tail = none ∧ closingQuotes c tail = some (more, rest) ∧
        pieces.flatten ++ more = s by
    obtain ⟨pieces, tail, more, steps, stop, closed, same⟩ := chain
    exact ⟨pieces, tail, more, many_some steps stop, closed, same⟩
  induction body with
  | nil =>
    obtain ⟨stop, closed⟩ := stops_at_closing tripled (n := 0) (by omega) apart
    exact ⟨[], _, [], .nil _, stop, closed, rfl⟩
  | @char written t s d head occupied reads others ih =>
    obtain ⟨pieces, tail, more, steps, stop, closed, same⟩ := ih
    refine ⟨[d] :: pieces, tail, more, ?_, stop, closed, by simp [← same]⟩
    rw [List.append_assoc]
    exact .cons (reads _) (length_lt_append occupied _) steps
  | @quotes n t s few apart' others ih =>
    rw [List.append_assoc]
    by_cases last : t = []
    · subst last
      obtain rfl := others.eq_nil
      obtain ⟨stop, closed⟩ := stops_at_closing tripled (n := n) (by omega) apart
      exact ⟨[], _, List.replicate n c, .nil _, stop, closed, by simp⟩
    · obtain ⟨pieces, tail, more, steps, stop, closed, same⟩ := ih
      refine ⟨List.replicate n c :: pieces, tail, more, ?_, stop, closed, by simp [← same]⟩
      have between : ∀ x ∈ (t ++ (List.replicate 3 c ++ rest)).head?, x ≠ c := by
        cases t with
        | nil => exact absurd rfl last
        | cons x t => exact apart'
      refine .cons ?_ (length_lt_append (by rcases few with rfl | rfl <;> simp) _) steps
      rw [linesPiece_quotes tripled (by omega)]
      exact innerQuotes_some few between (by simp [last])

end Lines

section Bodies

variable {s : List Char}

theorem escapeAll_head {lines : Bool} {allowed run : Nat} {c : Char} (other : c ≠ '"')
    (s : List Char) : ∀ x ∈ (escapeAll lines allowed run (c :: s)).head?,
      x = '\\' ∨ x = c ∧ (c = '\n' ∨ escape? c = none) := by
  intro x head
  rw [escapeAll_cons other] at head
  cases written : escape? c with
  | none =>
    rw [written, Option.getD_none, ite_self] at head
    exact .inr ⟨(Option.some.inj head).symm, .inr rfl⟩
  | some e =>
    split at head
    · rename_i line
      rw [Bool.and_eq_true, beq_iff_eq] at line
      exact .inr ⟨(Option.some.inj head).symm, .inl line.2⟩
    · rw [written, Option.getD_some, List.head?_append, escape?_head written] at head
      exact .inl (Option.some.inj head).symm

theorem escapeAll_head_ne {lines : Bool} {allowed run : Nat} {c : Char} (other : c ≠ '"')
    (s : List Char) : ∀ x ∈ (escapeAll lines allowed run (c :: s)).head?, x ≠ '"' := by
  intro x head
  rcases escapeAll_head other s x head with rfl | ⟨rfl, -⟩
  · decide
  · exact other

theorem body_cons {c : Char} (other : c ≠ '"') (run : Nat)
    (others : Body .basicLines '"' (escapeAll true 2 0 s) s) :
    Body .basicLines '"' (escapeAll true 2 run (c :: s)) (c :: s) := by
  have apart : ∀ x ∈ (escapeAll true 2 run (c :: s)).head?, x ≠ '"' := escapeAll_head_ne other s
  rw [escapeAll_cons other] at apart ⊢
  by_cases line : c = '\n'
  · subst line
    exact .char (by simp) (by simp) (fun _ => rfl) others
  · have chunk : (if true && c == '\n' then [c] else (escape? c).getD [c]) =
        (escape? c).getD [c] := if_neg (by simpa using line)
    rw [chunk] at apart ⊢
    have occupied := getD_escape?_ne_nil c
    refine .char (fun x head => apart x ?_) occupied (fun rest => ?_) others
    · rw [List.head?_append, Option.mem_def.mp head]
      rfl
    · exact orElse_some (linePiece_escape rfl other rest)

/-- Behind two quotes a third one is escaped, so that a run of quotes ends there. -/
theorem body_escapeAll_two
    (shorter : ∀ r : List Char, r.length < s.length → Body .basicLines '"' (escapeAll true 2 0 r) r) :
    Body .basicLines '"' (escapeAll true 2 2 s) s ∧
      ∀ x ∈ (escapeAll true 2 2 s).head?, x ≠ '"' := by
  cases s with
  | nil => exact ⟨.nil, by simp [escapeAll]⟩
  | cons c s =>
    have others := shorter s (by simp)
    by_cases quote : c = '"'
    · subst quote
      have written : escapeAll true 2 2 ('"' :: s) = ['\\', '"'] ++ escapeAll true 2 0 s := rfl
      rw [written]
      exact ⟨.char (by simp) (by simp)
        (fun rest => orElse_some (linePiece_escaped_quote rfl rest)) others, by simp⟩
    · exact ⟨body_cons quote 2 others, escapeAll_head_ne quote s⟩

theorem body_escapeAll (s : List Char) : Body .basicLines '"' (escapeAll true 2 0 s) s := by
  induction length : s.length using Nat.strong_induction_on generalizing s with
  | _ n ih =>
    have shorter : ∀ r : List Char, r.length < s.length →
        Body .basicLines '"' (escapeAll true 2 0 r) r := fun r less => ih _ (length ▸ less) r rfl
    cases s with
    | nil => exact .nil
    | cons c s =>
      by_cases quote : c = '"'
      · subst quote
        cases s with
        | nil => exact .quotes (n := 1) (.inl rfl) (by simp) .nil
        | cons d s =>
          by_cases quote' : d = '"'
          · subst quote'
            obtain ⟨body, apart⟩ := body_escapeAll_two fun r (less : r.length < s.length) =>
              shorter r (by simp only [List.length_cons]; omega)
            exact .quotes (n := 2) (.inr rfl) apart body
          · have body := body_cons quote' 1 (shorter s (by simp only [List.length_cons]; omega))
            exact .quotes (n := 1) (.inl rfl) (escapeAll_head_ne quote' s) body
      · exact body_cons quote 0 (shorter s (by simp))

theorem le_longestRun (q : Char) (here : Nat) (s : List Char) : here ≤ longestRun q here s := by
  induction s generalizing here with
  | nil => exact Nat.le_refl here
  | cons c s ih =>
    rw [longestRun]
    split
    · exact Nat.le_of_succ_le (ih (here + 1))
    · exact Nat.le_max_left _ _

theorem body_literal_cons {c : Char} (other : c ≠ '\'') (plain : needsEscape c = false)
    (others : Body .literalLines '\'' s s) : Body .literalLines '\'' (c :: s) (c :: s) := by
  have apart : ∀ x ∈ [c].head?, x ≠ '\'' := by simpa using other
  refine .char apart (by simp) (fun rest => ?_) others
  by_cases line : c = '\n'
  · subst line
    rfl
  · have allowed : isForbidden c = false := by simpa [needsEscape, line] using plain
    have verbatim : isVerbatim .literalLines c = true := by
      simp [isVerbatim, allowed, Quotes.hasEscapes, other]
    exact orElse_some (map_some (orElse_some (satisfy_some verbatim rest)) _)

theorem apart_of_longestRun {q : Char} {n : Nat} (short : longestRun q n s ≤ n) :
    ∀ x ∈ s.head?, x ≠ q := by
  intro x head same
  cases s with
  | nil => cases head
  | cons c s =>
    rw [longestRun, if_pos ((Option.some.inj head).trans same)] at short
    exact Nat.not_succ_le_self n ((le_longestRun q (n + 1) s).trans short)

theorem longestRun_fresh {q : Char} (apart : ∀ x ∈ s.head?, x ≠ q) (n : Nat) :
    longestRun q 0 s ≤ longestRun q n s := by
  cases s with
  | nil => exact Nat.zero_le n
  | cons c s =>
    rw [longestRun, longestRun, if_neg (apart c rfl), if_neg (apart c rfl), Nat.zero_max]
    exact Nat.le_max_right n _

theorem body_literal (s : List Char) (plain : ∀ c ∈ s, needsEscape c = false)
    (runs : longestRun '\'' 0 s ≤ 2) : Body .literalLines '\'' s s := by
  induction length : s.length using Nat.strong_induction_on generalizing s with
  | _ n ih =>
    subst length
    cases s with
    | nil => exact .nil
    | cons c s =>
      obtain ⟨first, others⟩ := List.forall_mem_cons.mp plain
      by_cases quote : c = '\''
      · subst quote
        have runs : longestRun '\'' 1 s ≤ 2 := runs
        cases s with
        | nil => exact .quotes (n := 1) (.inl rfl) (by simp) .nil
        | cons d s =>
          obtain ⟨-, others'⟩ := List.forall_mem_cons.mp others
          by_cases quote' : d = '\''
          · subst quote'
            have runs : longestRun '\'' 2 s ≤ 2 := runs
            have apart := apart_of_longestRun runs
            have body := ih _ (by simp only [List.length_cons]; omega) s others'
              ((longestRun_fresh apart 2).trans runs) rfl
            exact .quotes (n := 2) (.inr rfl) apart body
          · have apart : ∀ x ∈ (d :: s).head?, x ≠ '\'' := by simpa using quote'
            have body := ih _ (by simp) (d :: s) others
              ((longestRun_fresh apart 1).trans runs) rfl
            exact .quotes (n := 1) (.inl rfl) apart body
      · rw [longestRun, if_neg quote] at runs
        exact body_literal_cons quote first (ih _ (by simp) s others (by omega) rfl)

end Bodies
end SimdDispatch.Toml
