import SimdDispatch.Proofs.Toml.Quoted

/-!
Texts and keys as they are written, in the quotes that are chosen for them. The readers try the kinds
of quotes one after the other, and none reads what was written in another kind before its turn.
-/
namespace SimdDispatch.Toml

open Scanner

section Marks

variable {xs cs rest : List Char}

theorem forM_char_some (xs rest : List Char) : (xs.forM char) (xs ++ rest) = some ((), rest) := by
  induction xs with
  | nil => rfl
  | cons x xs ih => exact (bind_some (char_some x _) _).trans ih

theorem forM_char_none (unlike : ¬ xs <+: cs) : (xs.forM char) cs = none := by
  induction xs generalizing cs with
  | nil => exact absurd (List.nil_prefix) unlike
  | cons x xs ih =>
    cases cs with
    | nil => rfl
    | cons c cs =>
      by_cases same : c = x
      · subst same
        rw [List.cons_prefix_cons, not_and] at unlike
        exact (bind_some (char_some c cs) _).trans (ih (unlike rfl))
      · exact bind_none (char_none (by simpa using same)) _

theorem newline_none (other : ∀ x ∈ cs.head?, x ≠ '\n' ∧ x ≠ '\r') : newline cs = none := by
  refine (orElse_none (char_none fun x head => (other x head).1)).trans ?_
  exact bind_none (char_none fun x head => (other x head).2) _

end Marks

section Lines

variable {q : Quotes} {c : Char} {t s rest : List Char}

theorem Tripled.mark (tripled : Tripled q c) : q.mark = List.replicate 3 c := by
  cases tripled <;> rfl

/-- A text between tripled quotes. A line break behind the opening quotes is put there exactly if the
text has one, so that none of its own is lost. -/
theorem lines_some (tripled : Tripled q c) (body : Body q c t s)
    (start : '\n' ∉ s → ∀ x ∈ t.head?, x ≠ '\n' ∧ x ≠ '\r') (apart : ∀ x ∈ rest.head?, x ≠ c) :
    lines q c (q.mark ++ ((if s.contains '\n' then ['\n'] else []) ++
      (t ++ (q.mark ++ rest)))) = some (s, rest) := by
  obtain ⟨pieces, tail, more, read, closed, same⟩ := body.reads tripled apart
  rw [← tripled.mark] at read
  have opened : (discard (optional newline) : Scanner Unit)
      ((if s.contains '\n' then ['\n'] else []) ++ (t ++ (q.mark ++ rest))) =
        some ((), t ++ (q.mark ++ rest)) := by
    by_cases broken : '\n' ∈ s
    · rw [if_pos (by simpa using broken)]
      rfl
    · rw [if_neg (by simpa using broken)]
      refine discard_some (optional_none (newline_none fun x head => ?_))
      cases t with
      | nil => cases tripled <;> cases head <;> decide
      | cons y t => exact start broken x head
  rw [lines, literal, String.toList_ofList, bind_some (forM_char_some _ _), bind_some opened,
    bind_some read, bind_some closed, ← same]
  rfl

theorem lines_none (unlike : ¬ q.mark <+: t) : lines q c t = none := by
  rw [lines, literal, String.toList_ofList]
  exact bind_none (forM_char_none unlike) _

theorem line_none (other : ∀ x ∈ t.head?, x ≠ c) : line q c t = none :=
  bind_none (char_none other) _

end Lines

/-- The texts that can stand between quotes of a kind and be read back. -/
inductive Quotes.CanHold : Quotes → List Char → Prop
  | basic (s : List Char) : CanHold .basic s
  | literal {s : List Char} (occupied : s ≠ [])
      (verbatim : ∀ c ∈ s, isVerbatim .literal c = true) : CanHold .literal s
  | basicLines (s : List Char) : CanHold .basicLines s
  | literalLines {s : List Char} (plain : ∀ c ∈ s, needsEscape c = false)
      (runs : longestRun '\'' 0 s ≤ 2) : CanHold .literalLines s

section Choice

variable {s : List Char}

theorem canHold_valueQuotes (s : List Char) : (valueQuotes s).CanHold s := by
  unfold valueQuotes
  extract_lets oneLine escapes
  split
  · exact .basic s
  · rename_i elaborate
    split
    · rename_i literal
      simp only [oneLine, escapes, Bool.and_eq_true, Bool.not_eq_true', List.contains_eq_mem,
        decide_eq_false_iff_not, List.any_eq_false, Bool.not_eq_true] at literal
      obtain ⟨⟨line, plain⟩, noQuote⟩ := literal
      refine .literal ?_ fun c member => ?_
      · rintro rfl
        exact elaborate rfl
      · have allowed := plain c member
        have other : c ≠ '\'' := fun same => noQuote (same ▸ member)
        have sameLine : c ≠ '\n' := fun same => line (same ▸ member)
        simp only [needsEscape, bne_iff_ne.mpr sameLine, Bool.and_true] at allowed
        simp [isVerbatim, allowed, Quotes.hasEscapes, other]
    · split
      · exact .basicLines s
      · split
        · rename_i runs
          simp only [escapes, Bool.and_eq_true, Bool.not_eq_true', List.any_eq_false,
            Bool.not_eq_true, decide_eq_true_eq] at runs
          exact .literalLines runs.1 runs.2
        · split
          · exact .basic s
          · exact .basicLines s

theorem canHold_keyQuotes {q : Quotes} (chosen : keyQuotes s = some q) :
    q.CanHold s ∧ q.hasLines = false := by
  unfold keyQuotes at chosen
  split at chosen
  · cases chosen
  · split at chosen
    · cases chosen
      exact ⟨.basic s, rfl⟩
    · rename_i elaborate
      split at chosen
      · rename_i literal
        cases chosen
        simp only [Bool.and_eq_true, Bool.not_eq_true', List.contains_eq_mem,
          decide_eq_false_iff_not, List.any_eq_false, Bool.not_eq_true] at literal
        refine ⟨.literal ?_ fun c member => ?_, rfl⟩
        · rintro rfl
          exact elaborate rfl
        · have other : c ≠ '\'' := fun same => literal.2 (same ▸ member)
          simp [isVerbatim, literal.1 c member, Quotes.hasEscapes, other]
      · cases chosen
        exact ⟨.basic s, rfl⟩

end Choice

section Reading

variable {q : Quotes} {s rest : List Char}

theorem write_lines {c : Char} (tripled : Tripled q c) (s rest : List Char) :
    write q s ++ rest = q.mark ++ ((if s.contains '\n' then ['\n'] else []) ++
      ((if q.hasEscapes then escapeAll true 2 0 s else s) ++ (q.mark ++ rest))) := by
  cases tripled <;> simp [write, Quotes.hasLines, Quotes.hasEscapes]

theorem lines_none_of_basic (apart : ∀ x ∈ rest.head?, x ≠ '"') (s : List Char) :
    lines .basicLines '"' (write .basic s ++ rest) = none := by
  refine lines_none fun marked => ?_
  have written : write .basic s ++ rest = '"' :: (escapeAll false 0 0 s ++ '"' :: rest) := by
    simp [write, Quotes.mark, Quotes.hasLines, Quotes.hasEscapes]
  rw [written, Quotes.mark, List.cons_prefix_cons] at marked
  obtain ⟨t, same⟩ := marked.2
  cases s with
  | nil =>
    rw [escapeAll, List.nil_append, List.cons_append, List.cons.injEq] at same
    exact apart '"' (by rw [← same.2]; rfl) rfl
  | cons c s =>
    have head := congrArg List.head? same
    by_cases quote : c = '"'
    · subst quote
      cases head
    · cases written : escapeAll false 0 0 (c :: s) with
      | nil =>
        rw [escapeAll_cons quote, List.append_eq_nil_iff] at written
        exact getD_escape?_ne_nil c written.1
      | cons x xs =>
        rw [written] at head
        cases head
        exact escapeAll_head_ne quote s '"' (by rw [written]; rfl) rfl

theorem write_literal (s rest : List Char) :
    write .literal s ++ rest = '\'' :: (s ++ '\'' :: rest) := by
  simp [write, Quotes.mark, Quotes.hasLines, Quotes.hasEscapes]

/-- What starts with a single quote is no text in double quotes of either kind. -/
theorem basics_none (t : List Char) :
    lines .basicLines '"' ('\'' :: t) = none ∧ line .basic '"' ('\'' :: t) = none := by
  constructor
  · refine lines_none fun marked => ?_
    rw [Quotes.mark, List.cons_prefix_cons] at marked
    cases marked.1
  · refine line_none fun x head => ?_
    cases head
    decide

theorem lines_none_of_literal (occupied : s ≠ [])
    (verbatim : ∀ c ∈ s, isVerbatim .literal c = true) (rest : List Char) :
    lines .literalLines '\'' (write .literal s ++ rest) = none := by
  refine lines_none fun marked => ?_
  rw [write_literal, Quotes.mark, List.cons_prefix_cons] at marked
  cases s with
  | nil => exact occupied rfl
  | cons c s =>
    rw [List.cons_append, List.cons_prefix_cons] at marked
    have unlike := verbatim c List.mem_cons_self
    rw [← marked.2.1] at unlike
    cases unlike

theorem escapeAll_start (plain : '\n' ∉ s) :
    ∀ x ∈ (escapeAll true 2 0 s).head?, x ≠ '\n' ∧ x ≠ '\r' := by
  intro x head
  cases s with
  | nil => cases head
  | cons c s =>
    by_cases quote : c = '"'
    · subst quote
      cases head
      decide
    · rcases escapeAll_head quote s x head with rfl | ⟨rfl, line | bare⟩
      · decide
      · exact absurd (line ▸ List.mem_cons_self) plain
      · refine ⟨fun same => plain (same ▸ List.mem_cons_self), ?_⟩
        rintro rfl
        cases bare

theorem literal_start (plain : ∀ c ∈ s, needsEscape c = false) (line : '\n' ∉ s) :
    ∀ x ∈ s.head?, x ≠ '\n' ∧ x ≠ '\r' := by
  intro x head
  have member := List.mem_of_mem_head? head
  refine ⟨fun same => line (same ▸ member), ?_⟩
  rintro rfl
  cases plain _ member

theorem text_write (held : q.CanHold s)
    (apart : ∀ x ∈ rest.head?, x ≠ '"' ∧ x ≠ '\'') :
    text (write q s ++ rest) = some (String.ofList s, rest) := by
  have noBasic : ∀ x ∈ rest.head?, x ≠ '"' := fun x head => (apart x head).1
  have noLiteral : ∀ x ∈ rest.head?, x ≠ '\'' := fun x head => (apart x head).2
  refine map_some ?_ String.ofList
  cases held with
  | basic => exact (orElse_none (lines_none_of_basic noBasic s)).trans (orElse_some (line_basic s rest))
  | literal occupied verbatim =>
    have later := lines_none_of_literal occupied verbatim rest
    have read := line_literal verbatim rest
    rw [write_literal] at later read ⊢
    obtain ⟨first, second⟩ := basics_none (s ++ '\'' :: rest)
    exact (orElse_none first).trans ((orElse_none second).trans ((orElse_none later).trans read))
  | basicLines =>
    rw [write_lines .basic]
    exact orElse_some (lines_some .basic (body_escapeAll s) escapeAll_start noBasic)
  | literalLines plain runs =>
    rw [write_lines .literal]
    obtain ⟨first, second⟩ := basics_none _
    refine (orElse_none first).trans ((orElse_none second).trans ?_)
    exact orElse_some (lines_some .literal (body_literal s plain runs) (literal_start plain) noLiteral)

theorem text_writeValue (s : List Char) (apart : ∀ x ∈ rest.head?, x ≠ '"' ∧ x ≠ '\'') :
    text (writeValue s ++ rest) = some (String.ofList s, rest) :=
  text_write (canHold_valueQuotes s) apart

theorem simpleKey_writeKey (s : List Char) (stop : ∀ x ∈ rest.head?, isBare x = false) :
    simpleKey (writeKey s ++ rest) = some (String.ofList s, rest) := by
  refine map_some ?_ String.ofList
  unfold writeKey
  cases chosen : keyQuotes s with
  | none =>
    have bare : s ≠ [] ∧ ∀ c ∈ s, isBare c = true := by
      unfold keyQuotes at chosen
      repeat' split at chosen
      all_goals try cases chosen
      rename_i plain
      simpa using plain
    have head : ∀ x ∈ (s ++ rest).head?, x ≠ '"' ∧ x ≠ '\'' := by
      intro x head
      cases s with
      | nil => exact absurd rfl bare.1
      | cons c s =>
        cases head
        have plain := bare.2 x List.mem_cons_self
        constructor <;> rintro rfl <;> cases plain
    have first : line .basic '"' (s ++ rest) = none := line_none fun x h => (head x h).1
    have second : line .literal '\'' (s ++ rest) = none := line_none fun x h => (head x h).2
    refine (orElse_none first).trans ((orElse_none second).trans ?_)
    exact takeSome_some bare.1 bare.2 stop
  | some q =>
    obtain ⟨held, single⟩ := canHold_keyQuotes chosen
    cases held with
    | basic => exact orElse_some (line_basic s rest)
    | literal occupied verbatim =>
      have read := line_literal verbatim rest
      rw [write_literal] at read ⊢
      exact (orElse_none (basics_none _).2).trans (orElse_some read)
    | basicLines => cases single
    | literalLines => cases single

end Reading
end SimdDispatch.Toml
