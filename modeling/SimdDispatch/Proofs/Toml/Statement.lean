import SimdDispatch.Proofs.Toml.Texts
import SimdDispatch.Toml.Document

/-!
The lines of a document that is written statement by statement, read line by line: values, keys with
the blanks around them, assignments and headers of tables.
-/
namespace SimdDispatch.Toml

open Scanner

section Values

variable {rest : List Char}

theorem blanks_none {cs : List Char} (stop : ∀ x ∈ cs.head?, isBlank x = false) :
    blanks cs = some ((), cs) := skipWhile_none stop

theorem writeText_head (s : String) :
    ∃ x xs, writeText s = x :: xs ∧ (x = '"' ∨ x = '\'') := by
  rw [writeText, writeValue]
  cases valueQuotes s.toList with
  | basic => exact ⟨_, _, rfl, .inl rfl⟩
  | literal => exact ⟨_, _, rfl, .inr rfl⟩
  | basicLines => exact ⟨_, _, rfl, .inl rfl⟩
  | literalLines => exact ⟨_, _, rfl, .inr rfl⟩

theorem value_writeFlag (b : Bool) (rest : List Char) :
    value maxDepth (writeFlag b ++ rest) = some (.flag b, rest) := by
  cases b <;> rfl

theorem scalar_writeText (s : String) (apart : ∀ x ∈ rest.head?, x ≠ '"' ∧ x ≠ '\'') :
    scalar (writeText s ++ rest) = some (.text s, rest) := by
  have read := text_writeValue s.toList apart
  rw [String.ofList_toList] at read
  exact orElse_some (map_some read Setting.text)

theorem value_writeText (depth : Nat) (s : String)
    (apart : ∀ x ∈ rest.head?, x ≠ '"' ∧ x ≠ '\'') :
    value depth (writeText s ++ rest) = some (.text s, rest) := by
  cases depth with
  | zero => exact scalar_writeText s apart
  | succ depth => exact orElse_some (scalar_writeText s apart)

def isSpace (c : Char) : Bool := isBlank c || c == '\n' || c == '\r' || c == '#'

theorem space_steps {xs cs : List Char} {units : List Unit}
    (steps : Steps (discard (takeSome isBlank) <|> newline <|> comment) xs units cs)
    (stop : ∀ x ∈ cs.head?, isSpace x = false) : space xs = some ((), cs) := by
  refine discard_some (many_some steps ?_)
  have apart : ∀ x ∈ cs.head?, isBlank x = false ∧ (x ≠ '\n' ∧ x ≠ '\r') ∧ x ≠ '#' := by
    intro x head
    have other := stop x head
    simp only [isSpace, Bool.or_eq_false_iff, beq_eq_false_iff_ne] at other
    exact ⟨other.1.1.1, ⟨other.1.1.2, other.1.2⟩, other.2⟩
  refine (orElse_none (discard_none (takeSome_none fun x head => (apart x head).1))).trans ?_
  refine (orElse_none (newline_none fun x head => (apart x head).2.1)).trans ?_
  exact bind_none (char_none fun x head => (apart x head).2.2) _

theorem space_none {cs : List Char} (stop : ∀ x ∈ cs.head?, isSpace x = false) :
    space cs = some ((), cs) := space_steps (.nil cs) stop

theorem space_newline {cs : List Char} (stop : ∀ x ∈ cs.head?, isSpace x = false) :
    space ('\n' :: cs) = some ((), cs) :=
  space_steps (.cons ((orElse_none rfl).trans (orElse_some (orElse_some (char_some '\n' cs))))
    (by simp) (.nil cs)) stop

theorem space_indent {cs : List Char} (stop : ∀ x ∈ cs.head?, isSpace x = false) :
    space ("\n    ".toList ++ cs) = some ((), cs) := by
  have apart : ∀ x ∈ cs.head?, isBlank x = false := by
    intro x head
    have other := stop x head
    simp only [isSpace, Bool.or_eq_false_iff] at other
    exact other.1.1.1
  have indent : takeSome isBlank ([' ', ' ', ' ', ' '] ++ cs) = some ([' ', ' ', ' ', ' '], cs) :=
    takeSome_some (by simp) (by simp [isBlank]) apart
  have broken : (discard (takeSome isBlank) <|> newline <|> comment : Scanner Unit)
      ('\n' :: ([' ', ' ', ' ', ' '] ++ cs)) = some ((), [' ', ' ', ' ', ' '] ++ cs) :=
    (orElse_none rfl).trans (orElse_some (orElse_some (char_some '\n' _)))
  exact space_steps (.cons broken (by simp)
    (.cons (orElse_some (discard_some indent)) (by simp only [List.length_append, List.length_cons]; omega)
      (.nil cs))) stop

end Values

section Lists

variable {rest : List Char}

def listItem (value : Scanner Setting) : Scanner Setting := do
  space
  let v ← value
  space
  return v

theorem space_writeText_stop (s : String) (rest : List Char) :
    ∀ x ∈ (writeText s ++ rest).head?, isSpace x = false := by
  obtain ⟨x, xs, written, quote⟩ := writeText_head s
  rw [written]
  intro y head
  cases head
  rcases quote with rfl | rfl <;> rfl

theorem listItem_writeText (depth : Nat) (s : String)
    (stop : ∀ x ∈ rest.head?, isSpace x = false ∧ x ≠ '"' ∧ x ≠ '\'') :
    listItem (value depth) (writeText s ++ rest) = some (.text s, rest) := by
  rw [listItem, bind_some (space_none (space_writeText_stop s rest)),
    bind_some (value_writeText depth s fun x head => (stop x head).2),
    bind_some (space_none fun x head => (stop x head).1)]
  rfl

theorem listItem_indent (depth : Nat) (s : String) (rest : List Char) :
    (do char ','; listItem (value depth)) (",\n    ".toList ++ (writeText s ++ ',' :: rest)) =
      some (.text s, ',' :: rest) := by
  refine (bind_some (char_some ',' _) _).trans ?_
  refine (bind_some (space_indent (space_writeText_stop s _)) _).trans ?_
  refine (bind_some (value_writeText depth s (by simp)) _).trans ?_
  exact bind_some (space_none (by simp; decide)) _

/-- The lines of further items, from the comma after an item to the one after the last. -/
def itemLines (ts : List String) : List Char :=
  ts.flatMap fun s => ",\n    ".toList ++ writeText s

theorem itemLines_head (ts : List String) (rest : List Char) :
    ∃ tail, itemLines ts ++ ',' :: rest = ',' :: tail := by
  cases ts with
  | nil => exact ⟨rest, rfl⟩
  | cons u us => exact ⟨_, rfl⟩

theorem steps_itemLines (depth : Nat) (ts : List String) (rest : List Char) :
    Steps (do char ','; listItem (value depth)) (itemLines ts ++ ',' :: rest) (ts.map .text)
      (',' :: rest) := by
  induction ts with
  | nil => exact .nil _
  | cons t ts ih =>
    obtain ⟨tail, following⟩ := itemLines_head ts rest
    have read := listItem_indent depth t tail
    rw [← following] at read
    have same : itemLines (t :: ts) ++ ',' :: rest =
        ",\n    ".toList ++ (writeText t ++ (itemLines ts ++ ',' :: rest)) := by
      simp [itemLines]
    rw [same]
    have indent : ",\n    ".toList.length = 6 := rfl
    exact .cons read (by simp only [List.length_append, indent]; omega) ih

theorem listItem_close (rest : List Char) :
    (do char ','; listItem (value 78)) (",\n]".toList ++ rest) = none := by
  refine (bind_some (char_some ',' _) _).trans ?_
  refine (bind_some (space_newline (by simp; decide)) _).trans ?_
  rfl

theorem writeTexts_several (s t : String) (ts : List String) :
    writeTexts (s :: t :: ts) =
      '[' :: ("\n    ".toList ++ (writeText s ++ (itemLines (t :: ts) ++ ",\n]".toList))) := by
  have shift (us : List String) :
      ",\n".toList ++ (us.flatMap (fun s => "    ".toList ++ writeText s ++ ",\n".toList) ++ [']']) =
        itemLines us ++ ",\n]".toList := by
    induction us with
    | nil => rfl
    | cons u us ih =>
      simp only [itemLines, List.flatMap_cons, List.append_assoc] at ih ⊢
      rw [ih]
      rfl
  rw [← shift]
  simp [writeTexts]

theorem items_some {depth : Nat} {cs begun mid last after : List Char} {v : Setting}
    {vs : List Setting} {comma : Option Unit} (start : space cs = some ((), begun))
    (first : listItem (value depth) begun = some (v, mid))
    (others : Steps (do char ','; listItem (value depth)) mid vs last)
    (stop : (do char ','; listItem (value depth)) last = none)
    (final : (optional (char ',') : Scanner (Option Unit)) last = some (comma, after))
    (close : space after = some ((), ']' :: rest)) :
    items (value depth) ('[' :: cs) = some (v :: vs, rest) := by
  refine (bind_some (char_some '[' cs) _).trans ?_
  refine (bind_some start _).trans ?_
  refine (bind_some (optional_some (sepBy_some first others stop)) _).trans ?_
  refine (bind_some (discard_some final) _).trans ?_
  refine (bind_some close _).trans ?_
  exact bind_some (char_some ']' rest) _

theorem items_writeTexts (ts : List String) (rest : List Char) :
    items (value 78) (writeTexts ts ++ rest) = some (ts.map .text, rest) := by
  match ts with
  | [] => rfl
  | [s] =>
    have shape : writeTexts [s] ++ rest = '[' :: (writeText s ++ ']' :: rest) := by
      simp [writeTexts]
    rw [shape]
    exact items_some (space_none (space_writeText_stop s _))
      (listItem_writeText 78 s (by simp; decide)) (.nil _) rfl rfl (space_none (by simp; decide))
  | s :: t :: us =>
    have shape : writeTexts (s :: t :: us) ++ rest = '[' :: ("\n    ".toList ++
        (writeText s ++ (itemLines (t :: us) ++ ',' :: '\n' :: ']' :: rest))) := by
      simp [writeTexts_several]
    obtain ⟨tail, following⟩ := itemLines_head (t :: us) ('\n' :: ']' :: rest)
    have first : listItem (value 78)
        (writeText s ++ (itemLines (t :: us) ++ ',' :: '\n' :: ']' :: rest)) =
          some (.text s, itemLines (t :: us) ++ ',' :: '\n' :: ']' :: rest) := by
      rw [following]
      exact listItem_writeText 78 s (by simp; decide)
    rw [shape]
    exact items_some (space_indent (space_writeText_stop s _)) first (steps_itemLines 78 _ _)
      (listItem_close rest) (optional_some (char_some ',' _))
      (space_newline (by simp; decide))

theorem value_writeTexts (ts : List String) (rest : List Char) :
    value maxDepth (writeTexts ts ++ rest) = some (.list (ts.map .text), rest) := by
  have bracket : ∃ tail, writeTexts ts ++ rest = '[' :: tail := by
    match ts with
    | [] => exact ⟨_, rfl⟩
    | [s] => exact ⟨_, rfl⟩
    | s :: t :: us => exact ⟨_, rfl⟩
  obtain ⟨tail, shape⟩ := bracket
  have notScalar : scalar (writeTexts ts ++ rest) = none := by
    rw [shape]
    rfl
  exact (orElse_none notScalar).trans (orElse_some (map_some (items_writeTexts ts rest) _))

end Lists

section Keys

variable {rest : List Char}

theorem writeKey_head (s : String) :
    ∃ x xs, writeKey s.toList = x :: xs ∧ (isBare x = true ∨ x = '"' ∨ x = '\'') := by
  rw [writeKey]
  cases chosen : keyQuotes s.toList with
  | some q => cases q <;> exact ⟨_, _, rfl, by simp⟩
  | none =>
    unfold keyQuotes at chosen
    split at chosen
    · rename_i bare
      cases cs : s.toList with
      | nil => simp [cs] at bare
      | cons x xs =>
        rw [cs] at bare
        simp only [List.all_cons, Bool.and_eq_true] at bare
        exact ⟨x, xs, rfl, .inl bare.2.1⟩
    · split at chosen
      · cases chosen
      · split at chosen <;> cases chosen

theorem writeKey_apart (s : String) (rest : List Char) :
    ∀ x ∈ (writeKey s.toList ++ rest).head?, isBlank x = false ∧ x ≠ '[' ∧ x ≠ '\ufeff' := by
  obtain ⟨x, xs, written, kind⟩ := writeKey_head s
  rw [written]
  intro y head
  cases head
  rcases kind with bare | rfl | rfl
  · refine ⟨?_, ?_, ?_⟩
    · by_contra blank
      simp only [isBlank, isTab, Bool.not_eq_false, Bool.or_eq_true, beq_iff_eq] at blank
      rcases blank with rfl | rfl <;> exact absurd bare (by decide)
    · rintro rfl
      exact absurd bare (by decide)
    · rintro rfl
      exact absurd bare (by decide)
  · decide
  · decide

def keyPart : Scanner String := do
  blanks
  let k ← simpleKey
  blanks
  return k

theorem keyPart_writeKey (s : String) (gap : List Char) (blank : ∀ x ∈ gap, isBlank x = true)
    (stop : ∀ x ∈ rest.head?, isBlank x = false ∧ isBare x = false) :
    keyPart (writeKey s.toList ++ (gap ++ rest)) = some (s, rest) := by
  have bareless : ∀ x ∈ (gap ++ rest).head?, isBare x = false := by
    cases gap with
    | nil => exact fun x head => (stop x head).2
    | cons g gap =>
      intro x head
      cases head
      have space := blank g List.mem_cons_self
      simp only [isBlank, isTab, Bool.or_eq_true, beq_iff_eq] at space
      rcases space with rfl | rfl <;> decide
  have read := simpleKey_writeKey s.toList bareless
  rw [String.ofList_toList] at read
  have closed : blanks (gap ++ rest) = some ((), rest) :=
    skipWhile_some blank fun x head => (stop x head).1
  rw [keyPart, bind_some (blanks_none fun x head => (writeKey_apart s _ x head).1), bind_some read,
    bind_some closed]
  rfl

def dotParts (ks : List String) : List Char := ks.flatMap fun k => '.' :: writeKey k.toList

theorem intercalate_writeKey (k : String) (ks : List String) :
    ['.'].intercalate ((k :: ks).map fun k => writeKey k.toList) =
      writeKey k.toList ++ dotParts ks := by
  induction ks generalizing k with
  | nil => simp [dotParts]
  | cons l ks ih =>
    have following := ih l
    rw [List.map_cons] at following
    rw [List.map_cons, List.map_cons, List.intercalate_cons_cons, following]
    simp [dotParts]

/-- The parts of a dotted key, of which the last may have blanks behind it. -/
theorem keyParts_written (k : String) (ks : List String) {gap : List Char}
    (blank : ∀ x ∈ gap, isBlank x = true)
    (stop : ∀ x ∈ rest.head?, isBlank x = false ∧ isBare x = false) :
    ∃ mid, keyPart (writeKey k.toList ++ (dotParts ks ++ (gap ++ rest))) = some (k, mid) ∧
      mid.length ≤ (dotParts ks ++ (gap ++ rest)).length ∧
      Steps (do char '.'; keyPart) mid ks rest := by
  induction ks generalizing k with
  | nil => exact ⟨rest, keyPart_writeKey k gap blank stop, by simp [dotParts], .nil rest⟩
  | cons l ks ih =>
    obtain ⟨mid, read, shorter, steps⟩ := ih l
    have shape : dotParts (l :: ks) ++ (gap ++ rest) =
        '.' :: (writeKey l.toList ++ (dotParts ks ++ (gap ++ rest))) := by simp [dotParts]
    rw [shape]
    refine ⟨_, keyPart_writeKey k [] (by simp) (by simp; decide), by simp, ?_⟩
    refine .cons ((bind_some (char_some '.' _) _).trans read) ?_ steps
    simp only [List.length_cons, List.length_append] at shorter ⊢
    omega

theorem key_written (k : String) (ks : List String) (gap : List Char) (short : ks.length < maxDepth)
    (blank : ∀ x ∈ gap, isBlank x = true)
    (stop : ∀ x ∈ rest.head?, isBlank x = false ∧ isBare x = false ∧ x ≠ '.') :
    key (['.'].intercalate ((k :: ks).map fun k => writeKey k.toList) ++ (gap ++ rest)) =
      some (.ofParts k ks, rest) := by
  obtain ⟨mid, first, -, others⟩ := keyParts_written k ks blank
    fun x head => ⟨(stop x head).1, (stop x head).2.1⟩
  have done : (do char '.'; keyPart : Scanner String) rest = none :=
    bind_none (char_none fun x head => (stop x head).2.2) _
  rw [intercalate_writeKey, List.append_assoc]
  refine (bind_some (sepBy_some first others done) _).trans ?_
  exact congrFun (if_pos short) rest

end Keys

namespace Statement

variable {rest : List Char}

theorem lineEnd_newline (rest : List Char) : lineEnd ('\n' :: rest) = some ((), rest) := rfl

/-- A text that stands for a value at the end of a line. -/
structure Holds (t : List Char) (v : Setting) : Prop where
  start : ∀ rest, ∀ x ∈ (t ++ '\n' :: rest).head?, isBlank x = false
  read : ∀ rest, value maxDepth (t ++ '\n' :: rest) = some (v, '\n' :: rest)

theorem holds_writeFlag (b : Bool) : Holds (writeFlag b) (.flag b) where
  start := by cases b <;> exact fun rest => by simp [writeFlag]; decide
  read rest := value_writeFlag b _

theorem holds_writeText (s : String) : Holds (writeText s) (.text s) where
  start rest x head := by
    have other := space_writeText_stop s _ x head
    simp only [isSpace, Bool.or_eq_false_iff] at other
    exact other.1.1.1
  read rest := value_writeText maxDepth s (by simp)

theorem holds_writeTexts (ts : List String) : Holds (writeTexts ts) (.list (ts.map .text)) where
  start rest := by
    match ts with
    | [] => exact by simp [writeTexts]; decide
    | [s] => exact by simp [writeTexts]; decide
    | s :: t :: us => exact by simp [writeTexts]; decide
  read rest := value_writeTexts ts _

theorem header_none {cs : List Char} (other : ∀ x ∈ cs.head?, x ≠ '[') : header cs = none := by
  have unlike : ¬ "[[".toList <+: cs := by
    rintro ⟨tail, rfl⟩
    exact other '[' rfl rfl
  refine (orElse_none (bind_none (forM_char_none unlike) _)).trans ?_
  exact bind_none (char_none other) _

theorem readLine_writeAssignment {t : List Char} {v : Setting} (holds : Holds t v) (k : String)
    (rest : List Char) :
    readLine (writeAssignment k t ++ rest) = some (some (.assign ⟨[], k⟩ v), rest) := by
  have shape : writeAssignment k t ++ rest =
      writeKey k.toList ++ ([' '] ++ '=' :: ' ' :: (t ++ '\n' :: rest)) := by
    simp [writeAssignment]
  have apart := writeKey_apart k ([' '] ++ '=' :: ' ' :: (t ++ '\n' :: rest))
  have named : key (writeKey k.toList ++ ([' '] ++ '=' :: ' ' :: (t ++ '\n' :: rest))) =
      some (⟨[], k⟩, '=' :: ' ' :: (t ++ '\n' :: rest)) := by
    have stop : ∀ x ∈ ('=' :: ' ' :: (t ++ '\n' :: rest)).head?,
        isBlank x = false ∧ isBare x = false ∧ x ≠ '.' := by
      simpa using by decide
    have read := key_written k [] [' '] (by decide) (by simp [isBlank]) stop
    simpa [KeyPath.ofParts] using read
  have gap : blanks (' ' :: (t ++ '\n' :: rest)) = some ((), t ++ '\n' :: rest) :=
    skipWhile_some (show ∀ c ∈ [' '], isBlank c = true by simp [isBlank]) (holds.start rest)
  have assigned : assignment (writeKey k.toList ++ ([' '] ++ '=' :: ' ' :: (t ++ '\n' :: rest))) =
      some (.assign ⟨[], k⟩ v, '\n' :: rest) := by
    refine (bind_some named _).trans ?_
    refine (bind_some (char_some '=' _) _).trans ?_
    refine (bind_some gap _).trans ?_
    exact bind_some (holds.read rest) _
  have noHeader : header (writeKey k.toList ++ ([' '] ++ '=' :: ' ' :: (t ++ '\n' :: rest))) = none :=
    header_none fun x head => (apart x head).2.1
  rw [shape]
  refine (bind_some (blanks_none fun x head => (apart x head).1) _).trans ?_
  refine (bind_some (optional_some ((orElse_none noHeader).trans assigned)) _).trans ?_
  exact bind_some (lineEnd_newline rest) _

theorem header_written (k : String) (ks : List String) (short : ks.length < maxDepth)
    (rest : List Char) :
    header ('[' :: (['.'].intercalate ((k :: ks).map fun k => writeKey k.toList) ++ ']' :: rest)) =
      some (.table (.ofParts k ks), rest) := by
  have stop : ∀ x ∈ (']' :: rest).head?, isBlank x = false ∧ isBare x = false ∧ x ≠ '.' := by
    simpa using by decide
  have named := key_written k ks [] short (by simp) stop
  have unlike : ¬ "[[".toList <+:
      '[' :: (['.'].intercalate ((k :: ks).map fun k => writeKey k.toList) ++ ']' :: rest) := by
    intro marked
    have second := (List.cons_prefix_cons.mp marked).2
    rw [intercalate_writeKey, List.append_assoc] at second
    obtain ⟨tail, starts⟩ := second
    refine (writeKey_apart k (dotParts ks ++ ']' :: rest) '[' ?_).2.1 rfl
    rw [← starts]
    rfl
  refine (orElse_none (bind_none (forM_char_none unlike) _)).trans ?_
  refine (bind_some (char_some '[' _) _).trans ?_
  refine (bind_some named _).trans ?_
  exact bind_some (char_some ']' rest) _

theorem steps_writeHeader (k : String) (ks : List String) (short : ks.length < maxDepth)
    (rest : List Char) :
    Steps readLine (writeHeader (k :: ks) ++ rest) [none, some (.table (.ofParts k ks))] rest := by
  have shape : writeHeader (k :: ks) ++ rest = '\n' :: '[' ::
      (['.'].intercalate ((k :: ks).map fun k => writeKey k.toList) ++ ']' :: '\n' :: rest) := by
    simp [writeHeader]
  have opened : readLine ('[' ::
      (['.'].intercalate ((k :: ks).map fun k => writeKey k.toList) ++ ']' :: '\n' :: rest)) =
        some (some (.table (.ofParts k ks)), rest) := by
    refine (bind_some (blanks_none (by simp; decide)) _).trans ?_
    refine (bind_some (optional_some (orElse_some (header_written k ks short _))) _).trans ?_
    exact bind_some (lineEnd_newline rest) _
  rw [shape]
  exact .cons rfl (by simp)
    (.cons opened (by simp only [List.length_cons, List.length_append]; omega) (.nil rest))

theorem upTo_readLine_nil (fuel : List Char) :
    upTo readLine fuel [] = (List.replicate fuel.length none, []) := by
  induction fuel with
  | nil => rfl
  | cons c fuel ih =>
    have step : upTo readLine (c :: fuel) [] =
      (none :: (upTo readLine fuel []).1, (upTo readLine fuel []).2) := rfl
    rw [step, ih, List.length_cons, List.replicate_succ]

/-- A document that is read line by line to its end gives the statements of its lines. -/
theorem readAll_steps {document : List Char} {found : List (Option Statement)}
    (steps : Steps readLine document found []) (unmarked : ∀ x ∈ document.head?, x ≠ '\ufeff') :
    readAll (String.ofList document) = some (found.filterMap id) := by
  obtain ⟨left, stepped⟩ := steps.upTo (Nat.le_refl document.length)
  rw [upTo_readLine_nil] at stepped
  have lines : many readLine document = some (found ++ List.replicate left.length none, []) :=
    congrArg some stepped
  refine readAll_some ?_
  rw [String.toList_ofList]
  refine (bind_some (discard_some (optional_none (char_none unmarked))) _).trans ?_
  refine (bind_some lines _).trans ?_
  have ended : (found ++ List.replicate left.length none).filterMap id = found.filterMap id := by simp
  exact congrArg (fun statements => some (statements, [])) ended

end Statement
end SimdDispatch.Toml
