import SimdDispatch.Buffers
import SimdDispatch.Proofs.Buffer

/-!
Buffers against lists under the same operations. Whatever is made, changed and copied, the buffers
hold what the lists hold, in as many blocks as it takes, and one changes only where it is written to.
-/
namespace SimdDispatch.Buffers

variable {α : Type} [Element α]

/-- An operation on lists in place of buffers. -/
def listStep (ls : List (List α)) : Operation α → Option (List (List α))
  | .zeroed size =>
    if Buffer.fits α size then some (ls ++ [List.replicate size (Element.zero α)]) else none
  | .ofList values => if Buffer.fits α values.length then some (ls ++ [values]) else none
  | .clone k => ls[k]?.map fun l => ls ++ [l]
  | .set k i x => ls[k]?.bind fun l => if i < l.length then some (ls.set k (l.set i x)) else none
  | .fill k x => ls[k]?.map fun l => ls.set k (List.replicate l.length x)

def listRun (ls : List (List α)) (operations : List (Operation α)) : List (List α) :=
  operations.foldl (fun ls o => (listStep ls o).getD ls) ls

/-- What an operation does: it appends a new buffer or the copy of one, or changes its target. -/
theorem step_cases {bs bs' : List (Buffer α)} {o : Operation α} (stepped : step bs o = some bs') :
    (∃ b, bs' = bs ++ [b] ∧ (b.Compact ∨ b ∈ bs)) ∨
      ∃ k b b', o.target? = some k ∧ bs[k]? = some b ∧ bs' = bs.set k b' ∧
        (b.Compact → b'.Compact) := by
  cases o with
  | zeroed size =>
    left
    simp only [step, Buffer.allocate?] at stepped
    split at stepped
    · cases stepped
      exact ⟨_, rfl, .inl (Buffer.compact_zeroed size)⟩
    · cases stepped
  | ofList values =>
    left
    simp only [step] at stepped
    split at stepped
    · cases stepped
      exact ⟨_, rfl, .inl ((Buffer.compact_zeroed values.length).setFrom 0 values)⟩
    · cases stepped
  | clone k =>
    left
    obtain ⟨b, present, rfl⟩ := Option.map_eq_some_iff.mp stepped
    exact ⟨b, rfl, .inr (List.mem_of_getElem? present)⟩
  | set k i x =>
    right
    obtain ⟨b, present, written⟩ := Option.bind_eq_some_iff.mp stepped
    unfold Buffer.set at written
    split at written
    · cases written
      exact ⟨k, b, _, rfl, present, rfl, fun compact => compact.setIfInBounds i x⟩
    · cases written
  | fill k x =>
    right
    obtain ⟨b, present, rfl⟩ := Option.map_eq_some_iff.mp stepped
    exact ⟨k, b, _, rfl, present, rfl, fun compact => compact.setFrom 0 _⟩

theorem step_compact {bs bs' : List (Buffer α)} {o : Operation α}
    (compact : ∀ b ∈ bs, b.Compact) (stepped : step bs o = some bs') : ∀ b ∈ bs', b.Compact := by
  rcases step_cases stepped with ⟨b, rfl, made⟩ | ⟨k, b, b', -, present, rfl, kept⟩
  · intro c member
    rcases List.mem_append.mp member with old | new
    · exact compact c old
    · rw [List.mem_singleton.mp new]
      exact made.elim id (compact b)
  · intro c member
    rcases List.mem_or_eq_of_mem_set member with old | rfl
    · exact compact c old
    · exact kept (compact b (List.mem_of_getElem? present))

/-- A buffer stays what it is under an operation that changes another or none. -/
theorem step_getElem? {bs bs' : List (Buffer α)} {o : Operation α} {k : Nat} {b : Buffer α}
    (present : bs[k]? = some b) (other : o.target? ≠ some k) (stepped : step bs o = some bs') :
    bs'[k]? = some b := by
  have bound := (List.getElem?_eq_some_iff.mp present).1
  rcases step_cases stepped with ⟨c, rfl, -⟩ | ⟨m, -, c, target, -, rfl, -⟩
  · rw [List.getElem?_append_left bound, present]
  · have apart : m ≠ k := by
      rintro rfl
      exact other target
    rw [List.getElem?_set_ne apart, present]

/-- An operation does to the buffers what it does to the lists that they hold, and is refused where
it is refused there. -/
theorem step_toList (bs : List (Buffer α)) (o : Operation α) :
    (step bs o).map (·.map Buffer.toList) = listStep (bs.map Buffer.toList) o := by
  cases o with
  | zeroed size =>
    simp only [step, listStep, Buffer.allocate?]
    split
    · simp [Buffer.toList_zeroed]
    · rfl
  | ofList values =>
    simp only [step, listStep]
    split
    · simp [Buffer.toList_ofList]
    · rfl
  | clone k =>
    simp only [step, listStep, List.getElem?_map, Option.map_map]
    cases bs[k]? <;> simp
  | set k i x =>
    simp only [step, listStep, List.getElem?_map]
    cases bs[k]? with
    | none => rfl
    | some b =>
      simp only [Option.bind_some, Option.map_some, Buffer.length_toList, Buffer.set]
      split
      · simp [Except.toOption, List.map_set, Buffer.toList_setIfInBounds]
      · rfl
  | fill k x =>
    simp only [step, listStep, List.getElem?_map, Option.map_map]
    cases bs[k]? <;> simp [List.map_set, Buffer.toList_fill]

theorem run_cons (bs : List (Buffer α)) (o : Operation α) (rest : List (Operation α)) :
    run bs (o :: rest) = run ((step bs o).getD bs) rest := rfl

theorem run_toList (bs : List (Buffer α)) (operations : List (Operation α)) :
    (run bs operations).map Buffer.toList = listRun (bs.map Buffer.toList) operations := by
  induction operations generalizing bs with
  | nil => rfl
  | cons o rest ih =>
    have first : ((step bs o).getD bs).map Buffer.toList =
        (listStep (bs.map Buffer.toList) o).getD (bs.map Buffer.toList) := by
      rw [← step_toList]
      cases step bs o <;> rfl
    rw [run_cons, ih, first]
    rfl

theorem run_compact {bs : List (Buffer α)} (compact : ∀ b ∈ bs, b.Compact)
    (operations : List (Operation α)) : ∀ b ∈ run bs operations, b.Compact := by
  induction operations generalizing bs with
  | nil => exact compact
  | cons o rest ih =>
    rw [run_cons]
    apply ih
    cases stepped : step bs o with
    | none => exact compact
    | some bs' => exact step_compact compact stepped

theorem run_getElem? {bs : List (Buffer α)} {k : Nat} {b : Buffer α} (present : bs[k]? = some b)
    {operations : List (Operation α)} (others : ∀ o ∈ operations, o.target? ≠ some k) :
    (run bs operations)[k]? = some b := by
  induction operations generalizing bs with
  | nil => exact present
  | cons o rest ih =>
    rw [run_cons]
    refine ih ?_ fun later member => others later (List.mem_cons_of_mem o member)
    cases stepped : step bs o with
    | none => exact present
    | some bs' => exact step_getElem? present (others o List.mem_cons_self) stepped

/-- After any operations the buffers hold what lists hold after the same, in the blocks that it takes
and within reach of their views, and every further operation goes or is refused as on the lists. A
write changes the one element of the one buffer; and a buffer and its copy, whatever is done to either
or to others, do not change each other. -/
theorem run_holds_lists (operations : List (Operation α)) :
    let bs := run [] operations
    bs.map Buffer.toList = listRun [] operations ∧
    (∀ o, (step bs o).map (·.map Buffer.toList) = listStep (listRun [] operations) o) ∧
    (∀ b ∈ bs, b.blocks.size = b.size * Element.width α ⌈/⌉ maxAlignment ∧
      Block.view α b.blocks b.size = .ok b.toArray) ∧
    ∀ k b, bs[k]? = some b →
      (∀ i x, i < b.size → ∃ b', step bs (.set k i x) = some (bs.set k b') ∧
        ∀ j, b'.toList[j]? = if j = i then some x else b.toList[j]?) ∧
      step bs (.clone k) = some (bs ++ [b]) ∧
      ∀ later, ((∀ o ∈ later, o.target? ≠ some k) → (run (bs ++ [b]) later)[k]? = some b) ∧
        ((∀ o ∈ later, o.target? ≠ some bs.length) →
          (run (bs ++ [b]) later)[bs.length]? = some b) := by
  intro bs
  have contents : bs.map Buffer.toList = listRun [] operations := run_toList [] operations
  refine ⟨contents, fun o => by rw [← contents, step_toList], fun b member => ?_, ?_⟩
  · exact ⟨run_compact (by simp) operations b member, b.view_eq_ok⟩
  · intro k b present
    have bound := (List.getElem?_eq_some_iff.mp present).1
    refine ⟨fun i x inside => ⟨b.setIfInBounds i x, ?_, fun j => ?_⟩, ?_, fun later => ⟨?_, ?_⟩⟩
    · simp [step, present, Buffer.set, inside, Except.toOption]
    · rw [Buffer.toList_setIfInBounds, List.getElem?_set, Buffer.length_toList]
      rcases eq_or_ne i j with rfl | apart
      · rw [if_pos rfl, if_pos inside, if_pos rfl]
      · rw [if_neg apart, if_neg apart.symm]
    · simp [step, present]
    · exact run_getElem? (by rw [List.getElem?_append_left bound, present])
    · exact run_getElem? (by rw [List.getElem?_append_right (Nat.le_refl _), Nat.sub_self]; rfl)

/-- The last of nine samples lies in the second block. Only the copy is written to, and not behind
its end. -/
example : (run [] [.zeroed 9, .clone 0, .set 1 8 (⟨⟨7⟩, ⟨9⟩⟩ : Complex Single),
      .set 1 9 ⟨⟨1⟩, ⟨1⟩⟩]).map (fun b => (b.blocks.size, b.toList.drop 7)) =
    [(2, [⟨⟨0⟩, ⟨0⟩⟩, ⟨⟨0⟩, ⟨0⟩⟩]), (2, [⟨⟨0⟩, ⟨0⟩⟩, ⟨⟨7⟩, ⟨9⟩⟩])] := rfl

end SimdDispatch.Buffers
