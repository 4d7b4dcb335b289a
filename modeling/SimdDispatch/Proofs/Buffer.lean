import Mathlib.Algebra.Order.Floor.Div
import SimdDispatch.Buffer
import SimdDispatch.Proofs.Slice

/-!
Buffers as fixed-length arrays. The bytes of different elements lie apart, in one block or in
several, so that replacing an element replaces it and nothing else.
-/
namespace SimdDispatch

namespace Block

theorem getElem_setByte {blocks : Array Block} {k n : Nat} {x : UInt8} (h : n < blocks.size)
    (h' : n < (setByte blocks k x).size) :
    (setByte blocks k x)[n] =
      if k / maxAlignment = n then blocks[n].set (k % maxAlignment) x (Nat.mod_lt _ (by decide))
      else blocks[n] := Array.getElem_modify _

theorem byte_setByte {blocks : Array Block} {k j : Nat} {x : UInt8}
    (h : j < maxAlignment * (setByte blocks k x).size) :
    byte (setByte blocks k x) j h =
      if k = j then x else byte blocks j (by rwa [size_setByte] at h) := by
  have bound : j / maxAlignment < blocks.size := by
    rw [size_setByte] at h
    exact Nat.div_lt_of_lt_mul h
  unfold byte
  by_cases block : k / maxAlignment = j / maxAlignment
  · have offset : k % maxAlignment = j % maxAlignment ↔ k = j := by
      rw [maxAlignment] at *
      omega
    simp only [getElem_setByte bound, if_pos block, Vector.getElem_set, offset]
  · have apart : k ≠ j := by
      rintro rfl
      exact block rfl
    simp only [getElem_setByte bound, if_neg block, if_neg apart]

theorem setBytes_cons (blocks : Array Block) (k : Nat) (x : UInt8) (xs : List UInt8) :
    setBytes blocks k (x :: xs) = setBytes (setByte blocks k x) (k + 1) xs := rfl

theorem byte_setBytes_outside {blocks : Array Block} {k j : Nat} {xs : List UInt8}
    (outside : j < k ∨ k + xs.length ≤ j)
    (h : j < maxAlignment * (setBytes blocks k xs).size) :
    byte (setBytes blocks k xs) j h = byte blocks j (by rwa [size_setBytes] at h) := by
  induction xs generalizing blocks k with
  | nil => rfl
  | cons x rest ih =>
    rw [List.length_cons] at outside
    simp only [setBytes_cons]
    rw [ih (by omega), byte_setByte, if_neg (by omega)]

theorem byte_setBytes_inside {blocks : Array Block} {k i : Nat} {xs : List UInt8}
    (inside : i < xs.length) (h : k + i < maxAlignment * (setBytes blocks k xs).size) :
    byte (setBytes blocks k xs) (k + i) h = xs[i] := by
  induction xs generalizing blocks k i with
  | nil => cases inside
  | cons x rest ih =>
    simp only [setBytes_cons]
    cases i with
    | zero =>
      rw [byte_setBytes_outside (by omega), byte_setByte, if_pos (Nat.add_zero k).symm,
        List.getElem_cons_zero]
    | succ i =>
      have shifted : k + (i + 1) = k + 1 + i := by omega
      simp only [shifted, List.getElem_cons_succ]
      exact ih (Nat.lt_of_succ_lt_succ inside) _

theorem byte_zero {n k : Nat}
    (h : k < maxAlignment * (Array.replicate n (Vector.replicate maxAlignment (0 : UInt8))).size) :
    byte (Array.replicate n (Vector.replicate maxAlignment 0)) k h = 0 := by
  simp [byte]

end Block

/-- The element whose bytes are zero. -/
def Element.zero (α : Type) [Element α] : α := ofBytes (Vector.replicate _ 0)

namespace Buffer

variable {α : Type} [Element α]

theorem get_eq_ofBytes {b : Buffer α} {i : Nat} (hi : i < b.size)
    {v : Vector UInt8 (Element.width α)}
    (bytes : ∀ (t : Nat) (ht : t < Element.width α) h,
      Block.byte b.blocks (i * Element.width α + t) h = v[t]) :
    b.get i hi = Element.ofBytes v := by
  rw [get]
  apply congrArg
  apply Vector.ext
  intro t ht
  rw [Vector.getElem_ofFn]
  exact bytes t ht _

theorem blocks_setIfInBounds {b : Buffer α} {i : Nat} (x : α) (hi : i < b.size) :
    (b.setIfInBounds i x).blocks =
      Block.setBytes b.blocks (i * Element.width α) (Element.toBytes x).toList := by
  rw [setIfInBounds, if_pos hi]

theorem get_setIfInBounds {b : Buffer α} {i j : Nat} {x : α} (hi : i < b.size)
    (hj : j < (b.setIfInBounds i x).size) :
    (b.setIfInBounds i x).get j hj =
      if i = j then x else b.get j (by rwa [size_setIfInBounds] at hj) := by
  have width : (Element.toBytes x).toList.length = Element.width α := Vector.length_toList
  rcases eq_or_ne i j with rfl | apart
  · rw [if_pos rfl, get_eq_ofBytes (v := Element.toBytes x), Element.ofBytes_toBytes]
    intro t ht h
    simp only [blocks_setIfInBounds x hi]
    rw [Block.byte_setBytes_inside (by omega), Vector.getElem_toList]
  · rw [if_neg apart]
    apply get_eq_ofBytes
    intro t ht h
    rw [Vector.getElem_ofFn]
    simp only [blocks_setIfInBounds x hi]
    apply Block.byte_setBytes_outside
    -- Of two elements the first ends before the second starts.
    rw [width]
    rcases Nat.lt_or_gt_of_ne apart with before | behind
    · right
      have ends := Nat.mul_le_mul_right (Element.width α) before
      rw [Nat.succ_mul] at ends
      omega
    · left
      have ends := Nat.mul_le_mul_right (Element.width α) behind
      rw [Nat.succ_mul] at ends
      omega

theorem getElem_toArray (b : Buffer α) {i : Nat} (h : i < b.toArray.size) :
    b.toArray[i] = b.get i (by rwa [size_toArray] at h) := by
  simp [toArray]

theorem toArray_setIfInBounds (b : Buffer α) (i : Nat) (x : α) :
    (b.setIfInBounds i x).toArray = b.toArray.setIfInBounds i x := by
  by_cases inside : i < b.size
  · apply Array.ext
    · simp
    · intro j hj hj'
      rw [Array.size_setIfInBounds] at hj'
      rw [getElem_toArray, get_setIfInBounds inside, Array.getElem_setIfInBounds hj',
        getElem_toArray]
  · rw [setIfInBounds, if_neg inside, Array.setIfInBounds_eq_of_size_le (by simp; omega)]

theorem toArray_setFrom (b : Buffer α) (i : Nat) (xs : List α) :
    (b.setFrom i xs).toArray = (Slice.overwrite ⟨0, b.toArray⟩ i xs).elements := by
  induction xs generalizing b i with
  | nil => rfl
  | cons x rest ih =>
    change ((b.setIfInBounds i x).setFrom (i + 1) rest).toArray = _
    rw [ih, Slice.overwrite_cons, toArray_setIfInBounds]

@[simp] theorem length_toList (b : Buffer α) : b.toList.length = b.size := by
  rw [toList, Array.length_toList, size_toArray]

theorem toList_setIfInBounds (b : Buffer α) (i : Nat) (x : α) :
    (b.setIfInBounds i x).toList = b.toList.set i x := by
  rw [toList, toArray_setIfInBounds, Array.toList_setIfInBounds, toList]

theorem toList_setFrom_zero {b : Buffer α} {xs : List α} (full : xs.length = b.size) :
    (b.setFrom 0 xs).toList = xs := by
  apply List.ext_getElem?
  intro i
  rw [toList, Array.getElem?_toList, toArray_setFrom, Slice.getElem?_overwrite]
  have size : Slice.size ⟨0, b.toArray⟩ = xs.length := (size_toArray b).trans full.symm
  split
  · simp
  · rename_i beyond
    rw [List.getElem?_eq_none (by omega), Array.getElem?_eq_none]
    change Slice.size ⟨0, b.toArray⟩ ≤ i
    omega

theorem toList_fill (b : Buffer α) (x : α) : (b.fill x).toList = List.replicate b.size x :=
  toList_setFrom_zero List.length_replicate

theorem toList_ofList (xs : List α) : (ofList xs : Buffer α).toList = xs :=
  toList_setFrom_zero (size_zeroed xs.length).symm

/-- As many blocks as the bytes of the elements fill, the last perhaps in part. -/
def Compact (b : Buffer α) : Prop :=
  b.blocks.size = b.size * Element.width α ⌈/⌉ maxAlignment

theorem compact_zeroed (size : Nat) : (zeroed size : Buffer α).Compact := by
  have blocks : (zeroed size : Buffer α).blocks.size = Block.count α size := Array.size_replicate
  rw [Compact, blocks, size_zeroed]
  apply eq_of_forall_ge_iff
  intro n
  rw [Block.count_le_iff, ceilDiv_le_iff_le_mul (by decide), Block.mul_width_le_iff]

theorem Compact.setIfInBounds {b : Buffer α} (compact : b.Compact) (i : Nat) (x : α) :
    (b.setIfInBounds i x).Compact := by
  have blocks : (b.setIfInBounds i x).blocks.size = b.blocks.size := by
    unfold Buffer.setIfInBounds
    split
    · exact Block.size_setBytes _ _ _
    · rfl
  rw [Compact, blocks, size_setIfInBounds]
  exact compact

theorem Compact.setFrom {b : Buffer α} (compact : b.Compact) (i : Nat) (xs : List α) :
    (b.setFrom i xs).Compact := by
  induction xs generalizing b i with
  | nil => exact compact
  | cons x rest ih => exact ih (compact.setIfInBounds i x) (i + 1)

/-- The view of the blocks of a buffer reaches as far as its elements do. -/
theorem view_eq_ok (b : Buffer α) : Block.view α b.blocks b.size = .ok b.toArray := by
  have all : (Block.elements α b.blocks).size = b.blocks.size * Element.perBlock α :=
    Array.size_ofFn
  have reach : b.size ≤ (Block.elements α b.blocks).size := by
    rw [all, Nat.mul_comm]
    exact Block.mul_width_le_iff.mp b.room
  rw [Block.view, if_pos reach]
  apply congrArg
  apply Array.ext
  · simp [reach]
  · intro i hi hi'
    rw [Array.getElem_extract, getElem_toArray]
    simp [Block.elements, get]

theorem toList_zeroed (size : Nat) :
    (zeroed size : Buffer α).toList = List.replicate size (Element.zero α) := by
  apply List.ext_getElem
  · simp
  · intro i hi hi'
    rw [List.getElem_replicate]
    simp only [toList, Array.getElem_toList, getElem_toArray]
    apply get_eq_ofBytes
    intro t ht h
    rw [Vector.getElem_replicate]
    exact Block.byte_zero h

end Buffer
end SimdDispatch
