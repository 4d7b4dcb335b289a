import SimdDispatch.Proofs.Environment

/-!
The variables that are named after keys: the prefix, and the keys in upper case with two underscores
between them. They spell those keys if each key is made of words with single underscores between.
-/
namespace SimdDispatch.Environment

def isWord (c : Char) : Bool := c.isLower || c.isDigit

/-- Lower-case letters and digits, with single underscores between them. -/
def isPlain : List Char → Bool
  | [] => false
  | [c] => isWord c
  | c :: '_' :: rest => isWord c && isPlain rest
  | c :: d :: rest => isWord c && isPlain (d :: rest)

def capitals (key : String) : List Char := key.toList.map Char.toUpper

def variableName (keys : List String) : String :=
  String.ofList (mark.toList ++ ['_', '_'].intercalate (keys.map capitals))

structure Capital (c u : Char) : Prop where
  unblank : Text.isBlank u = false
  dotless : u ≠ '.'
  other : u ≠ '_'
  lower : u.toLower = c

theorem capital_toUpper {c : Char} (word : isWord c = true) : Capital c c.toUpper := by
  have table : ∀ n < 128, isWord (Char.ofNat n) = true →
      Text.isBlank (Char.ofNat n).toUpper = false ∧ (Char.ofNat n).toUpper ≠ '.' ∧
        (Char.ofNat n).toUpper ≠ '_' ∧ (Char.ofNat n).toUpper.toLower = Char.ofNat n := by
    decide
  have small : c.toNat < 128 := by
    change (decide (97 ≤ c.val) && decide (c.val ≤ 122) ||
      decide (48 ≤ c.val) && decide (c.val ≤ 57)) = true at word
    simp only [UInt32.le_iff_toNat_le, Bool.or_eq_true, Bool.and_eq_true, decide_eq_true_eq] at word
    change c.val.toNat < 128
    rcases word with ⟨-, low⟩ | ⟨-, low⟩
    · exact Nat.lt_of_le_of_lt low (by decide)
    · exact Nat.lt_of_le_of_lt low (by decide)
  have found := table c.toNat small
  rw [Char.ofNat_toNat] at found
  obtain ⟨unblank, dotless, other, lower⟩ := found word
  exact ⟨unblank, dotless, other, lower⟩

theorem isPlain_head {cs : List Char} (plain : isPlain cs = true) :
    ∃ c rest, cs = c :: rest ∧ isWord c = true := by
  unfold isPlain at plain
  split at plain
  · cases plain
  · exact ⟨_, _, rfl, plain⟩
  · exact ⟨_, _, rfl, (Bool.and_eq_true_iff.mp plain).1⟩
  · exact ⟨_, _, rfl, (Bool.and_eq_true_iff.mp plain).1⟩

theorem dotted_cons {c : Char} {cs : List Char} (apart : c ≠ '_' ∨ cs.head? ≠ some '_') :
    dotted (c :: cs) = c :: dotted cs := by
  rw [dotted]
  rintro rest rfl rfl
  rcases apart with other | other <;> exact other rfl

/-- Two underscores behind a plain key are made a dot, and none in it. -/
theorem dotted_capitals {cs : List Char} (plain : isPlain cs = true) (more : List Char) :
    dotted (cs.map Char.toUpper) = cs.map Char.toUpper ∧
      dotted (cs.map Char.toUpper ++ '_' :: '_' :: more) =
        cs.map Char.toUpper ++ '.' :: dotted more := by
  fun_induction isPlain cs with
  | case1 => cases plain
  | case2 c =>
    have other := (capital_toUpper plain).other
    refine ⟨?_, ?_⟩
    · exact (dotted_cons (.inl other)).trans rfl
    · exact (dotted_cons (.inl other)).trans rfl
  | case3 c rest ih =>
    obtain ⟨word, following⟩ := Bool.and_eq_true_iff.mp plain
    have other := (capital_toUpper word).other
    obtain ⟨d, ds, rfl, next⟩ := isPlain_head following
    have apart : d.toUpper ≠ '_' := (capital_toUpper next).other
    obtain ⟨alone, before⟩ := ih following
    have spaced (tail : List Char) : dotted (c.toUpper :: '_' :: d.toUpper :: tail) =
        c.toUpper :: '_' :: dotted (d.toUpper :: tail) := by
      rw [dotted_cons (.inl other), dotted_cons (.inr (by simpa using apart))]
    exact ⟨(spaced _).trans (congrArg (c.toUpper :: '_' :: ·) alone),
      (spaced _).trans (congrArg (c.toUpper :: '_' :: ·) before)⟩
  | case4 c d rest _ ih =>
    obtain ⟨word, following⟩ := Bool.and_eq_true_iff.mp plain
    have other := (capital_toUpper word).other
    obtain ⟨alone, before⟩ := ih following
    exact ⟨(dotted_cons (.inl other)).trans (congrArg _ alone),
      (dotted_cons (.inl other)).trans (congrArg _ before)⟩

theorem mem_intercalate {sep : List Char} {ls : List (List Char)} {c : Char}
    (member : c ∈ sep.intercalate ls) : c ∈ sep ∨ ∃ l ∈ ls, c ∈ l := by
  induction ls with
  | nil => cases member
  | cons l ls ih =>
    cases ls with
    | nil =>
      rw [List.intercalate_singleton] at member
      exact .inr ⟨l, List.mem_cons_self, member⟩
    | cons m ls =>
      rw [List.intercalate_cons_cons, List.mem_append, List.mem_append] at member
      rcases member with (here | between) | later
      · exact .inr ⟨l, List.mem_cons_self, here⟩
      · exact .inl between
      · rcases ih later with between | ⟨k, listed, within⟩
        · exact .inl between
        · exact .inr ⟨k, List.mem_cons_of_mem _ listed, within⟩

theorem capitals_apart {cs : List Char} (plain : isPlain cs = true) :
    ∀ u ∈ cs.map Char.toUpper, Text.isBlank u = false ∧ u ≠ '.' := by
  fun_induction isPlain cs with
  | case1 => cases plain
  | case2 c =>
    have capital := capital_toUpper plain
    simpa using ⟨capital.unblank, capital.dotless⟩
  | case3 c rest ih =>
    obtain ⟨word, following⟩ := Bool.and_eq_true_iff.mp plain
    have capital := capital_toUpper word
    exact List.forall_mem_cons.mpr ⟨⟨capital.unblank, capital.dotless⟩,
      List.forall_mem_cons.mpr ⟨by decide, ih following⟩⟩
  | case4 c d rest _ ih =>
    obtain ⟨word, following⟩ := Bool.and_eq_true_iff.mp plain
    have capital := capital_toUpper word
    exact List.forall_mem_cons.mpr ⟨⟨capital.unblank, capital.dotless⟩, ih following⟩

theorem lowercase_capitals {cs : List Char} (plain : isPlain cs = true) :
    lowercase (cs.map Char.toUpper) = cs := by
  fun_induction isPlain cs with
  | case1 => cases plain
  | case2 c => exact congrArg (· :: []) (capital_toUpper plain).lower
  | case3 c rest ih =>
    obtain ⟨word, following⟩ := Bool.and_eq_true_iff.mp plain
    exact congrArg₂ (· :: '_' :: ·) (capital_toUpper word).lower (ih following)
  | case4 c d rest _ ih =>
    obtain ⟨word, following⟩ := Bool.and_eq_true_iff.mp plain
    exact congrArg₂ (· :: ·) (capital_toUpper word).lower (ih following)

theorem dotted_intercalate {keys : List String} (plain : ∀ k ∈ keys, isPlain k.toList = true) :
    dotted (['_', '_'].intercalate (keys.map capitals)) = ['.'].intercalate (keys.map capitals) := by
  induction keys with
  | nil => rfl
  | cons k keys ih =>
    obtain ⟨first, others⟩ := List.forall_mem_cons.mp plain
    cases keys with
    | nil =>
      simp only [List.map_cons, List.map_nil, List.intercalate_singleton]
      exact (dotted_capitals first []).1
    | cons l keys =>
      have following := ih others
      rw [List.map_cons] at following
      rw [List.map_cons, List.map_cons, List.intercalate_cons_cons, List.intercalate_cons_cons,
        ← following, List.append_assoc, List.append_assoc]
      exact (dotted_capitals first _).2

theorem trimWhile_eq_self {p : Char → Bool} {cs : List Char} (none : ∀ c ∈ cs, p c = false) :
    Text.trimWhile p cs = cs := by
  have kept (ds : List Char) (apart : ∀ c ∈ ds, p c = false) : ds.dropWhile p = ds := by
    apply List.dropWhile_eq_self_iff.mpr
    intro inhabited
    simp [apart _ (List.getElem_mem inhabited)]
  rw [Text.trimWhile, kept cs none, kept cs.reverse fun c member => none c (List.mem_reverse.mp member),
    List.reverse_reverse]

theorem joined_unblank {keys : List String} (plain : ∀ k ∈ keys, isPlain k.toList = true)
    {sep : List Char} (blankless : ∀ c ∈ sep, Text.isBlank c = false) :
    ∀ c ∈ sep.intercalate (keys.map capitals), Text.isBlank c = false := by
  intro c member
  rcases mem_intercalate member with between | ⟨_, listed, within⟩
  · exact blankless c between
  · obtain ⟨k, held, rfl⟩ := List.mem_map.mp listed
    exact (capitals_apart (plain k held) c within).1

theorem parts_joined {keys : List String} (away : keys ≠ [])
    (plain : ∀ k ∈ keys, isPlain k.toList = true) :
    parts (['.'].intercalate (keys.map capitals)) = keys.map capitals := by
  refine List.splitOn_intercalate '.' (fun l listed within => ?_) (by simpa using away)
  obtain ⟨k, held, rfl⟩ := List.mem_map.mp listed
  exact (capitals_apart (plain k held) '.' within).2 rfl

theorem joined_unreserved {keys : List String} (plain : ∀ k ∈ keys, isPlain k.toList = true)
    (free : keys ≠ ["config"]) :
    lowercase (['_', '_'].intercalate (keys.map capitals)) ≠ reserved := by
  intro same
  match keys with
  | [] => cases same
  | [k] =>
    rw [List.map_cons, List.map_nil, List.intercalate_singleton, capitals,
      lowercase_capitals (plain k List.mem_cons_self)] at same
    exact free (congrArg (· :: []) (String.toList_inj.mp same))
  | k :: l :: ks =>
    have between : '_' ∈ lowercase (['_', '_'].intercalate ((k :: l :: ks).map capitals)) := by
      rw [List.map_cons, List.map_cons, List.intercalate_cons_cons, lowercase]
      exact List.mem_map.mpr ⟨'_', by simp, rfl⟩
    rw [same] at between
    exact absurd between (by decide)

theorem path?_variableName {keys : List String} (away : keys ≠ [])
    (plain : ∀ k ∈ keys, isPlain k.toList = true) (free : keys ≠ ["config"]) :
    path? (variableName keys) = some keys := by
  have underscores : ∀ c ∈ ['_', '_'], Text.isBlank c = false := by
    simpa using by decide
  have dots : ∀ c ∈ ['.'], Text.isBlank c = false := by
    simpa using by decide
  have whole : Text.trimWhile Text.isBlank (variableName keys).toList =
      mark.toList ++ ['_', '_'].intercalate (keys.map capitals) := by
    rw [variableName, String.toList_ofList]
    refine trimWhile_eq_self fun c member => ?_
    rcases List.mem_append.mp member with start | joined
    · have marked : mark.toList.all (fun c => !Text.isBlank c) = true := by decide
      simpa using List.all_eq_true.mp marked c start
    · exact joined_unblank plain underscores c joined
  have listed : parts (Text.trimWhile Text.isBlank
      (dotted (['_', '_'].intercalate (keys.map capitals)))) = keys.map capitals := by
    rw [dotted_intercalate plain, trimWhile_eq_self (joined_unblank plain dots),
      parts_joined away plain]
  have occupied : (keys.map capitals).any List.isEmpty = false := by
    refine List.any_eq_false.mpr fun l member => ?_
    obtain ⟨k, held, rfl⟩ := List.mem_map.mp member
    obtain ⟨c, rest, same, -⟩ := isPlain_head (plain k held)
    simp [capitals, same]
  have named : (keys.map capitals).map (fun k => String.ofList (lowercase k)) = keys := by
    rw [List.map_map]
    refine (List.map_congr_left fun k held => ?_).trans (List.map_id keys)
    rw [Function.comp, capitals, lowercase_capitals (plain k held), String.ofList_toList, id]
  obtain ⟨first, more, rfl⟩ := List.exists_cons_of_ne_nil away
  rw [path?, keys?]
  simp only [whole, List.take_left, List.drop_left, ne_eq, not_true_eq_false, if_false,
    joined_unreserved plain free, listed, occupied, named]
  rfl

end SimdDispatch.Environment
