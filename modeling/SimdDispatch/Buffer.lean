import SimdDispatch.Error
import SimdDispatch.Single
import SimdDispatch.Slice

/-!
Sample buffers. The elements lie one after the other in blocks of 64 bytes, the first of which
starts on a boundary of 64 bytes; what lies after the last element is not part of the buffer.
-/
namespace SimdDispatch

class Element (α : Type) where
  width : Nat
  width_dvd : width ∣ maxAlignment
  toBytes : α → Vector UInt8 width
  ofBytes : Vector UInt8 width → α
  ofBytes_toBytes (a : α) : ofBytes (toBytes a) = a

namespace Element

variable {α : Type} [Element α]

/-- The number of elements in a block. -/
def perBlock (α : Type) [Element α] : Nat := maxAlignment / width α

theorem perBlock_mul_width : perBlock α * width α = maxAlignment := Nat.div_mul_cancel width_dvd

theorem width_pos : 0 < width α := Nat.pos_of_dvd_of_pos width_dvd (by decide)

theorem perBlock_pos : 0 < perBlock α :=
  Nat.div_pos (Nat.le_of_dvd (by decide) width_dvd) width_pos

end Element

/-- The bytes of one cache line. -/
abbrev Block := Vector UInt8 maxAlignment

namespace Block

def byte (blocks : Array Block) (k : Nat) (h : k < maxAlignment * blocks.size) : UInt8 :=
  have block : k / maxAlignment < blocks.size := Nat.div_lt_of_lt_mul h
  have offset : k % maxAlignment < maxAlignment := Nat.mod_lt _ (by decide)
  blocks[k / maxAlignment][k % maxAlignment]

def setByte (blocks : Array Block) (k : Nat) (x : UInt8) : Array Block :=
  blocks.modify (k / maxAlignment) fun b => b.set (k % maxAlignment) x (Nat.mod_lt _ (by decide))

@[simp] theorem size_setByte (blocks : Array Block) (k : Nat) (x : UInt8) :
    (setByte blocks k x).size = blocks.size := Array.size_modify

def setBytes (blocks : Array Block) (k : Nat) (xs : List UInt8) : Array Block :=
  (xs.zipIdx k).foldl (fun bs (x, i) => setByte bs i x) blocks

@[simp] theorem size_setBytes (blocks : Array Block) (k : Nat) (xs : List UInt8) :
    (setBytes blocks k xs).size = blocks.size := by
  induction xs generalizing blocks k with
  | nil => rfl
  | cons x xs ih =>
    show (setBytes (setByte blocks k x) (k + 1) xs).size = _
    rw [ih, size_setByte]

variable {α : Type} [Element α]

/-- The number of blocks that elements take. -/
def count (α : Type) [Element α] (size : Nat) : Nat :=
  (size + (Element.perBlock α - 1)) / Element.perBlock α

theorem count_le_iff {size n : Nat} : count α size ≤ n ↔ size ≤ Element.perBlock α * n := by
  have positive := Element.perBlock_pos (α := α)
  rw [count, Nat.div_le_iff_le_mul positive, Nat.mul_comm]
  omega

theorem mul_width_le_iff {size n : Nat} :
    size * Element.width α ≤ maxAlignment * n ↔ size ≤ Element.perBlock α * n := by
  rw [← Element.perBlock_mul_width (α := α), Nat.mul_right_comm,
    Nat.mul_le_mul_right_iff Element.width_pos]

private theorem element_lt {blocks : Array Block} {i j : Nat}
    (hi : i < blocks.size * Element.perBlock α) (hj : j < Element.width α) :
    i * Element.width α + j < maxAlignment * blocks.size :=
  calc i * Element.width α + j < (i + 1) * Element.width α := by rw [Nat.succ_mul]; omega
    _ ≤ blocks.size * Element.perBlock α * Element.width α := Nat.mul_le_mul_right _ hi
    _ = maxAlignment * blocks.size := by
      rw [Nat.mul_assoc, Element.perBlock_mul_width, Nat.mul_comm]

/-- The elements that fill blocks, one after the other. -/
def elements (α : Type) [Element α] (blocks : Array Block) : Array α :=
  Array.ofFn fun i : Fin (blocks.size * Element.perBlock α) =>
    Element.ofBytes (Vector.ofFn fun j =>
      byte blocks (i * Element.width α + j) (element_lt i.isLt j.isLt))

/-- The first elements of blocks, which must have that many. -/
def view (α : Type) [Element α] (blocks : Array Block) (size : Nat) :
    Except AccessFault (Array α) :=
  let all := elements α blocks
  if size ≤ all.size then .ok (all.extract 0 size) else .error .outOfRange

end Block

structure Buffer (α : Type) [Element α] where
  blocks : Array Block
  size : Nat
  room : size * Element.width α ≤ maxAlignment * blocks.size

namespace Buffer

variable {α : Type} [Element α]

/-- Every buffer has fewer bytes than this. -/
def byteLimit : Nat := 1 <<< 63

/-- Whether a buffer can have a number of elements. -/
def fits (α : Type) [Element α] (size : Nat) : Bool :=
  maxAlignment * Block.count α size < byteLimit

private theorem byte_lt (b : Buffer α) {i j : Nat} (hi : i < b.size) (hj : j < Element.width α) :
    i * Element.width α + j < maxAlignment * b.blocks.size := by
  refine Nat.lt_of_lt_of_le ?_ b.room
  calc i * Element.width α + j < (i + 1) * Element.width α := by rw [Nat.succ_mul]; omega
    _ ≤ b.size * Element.width α := Nat.mul_le_mul_right _ hi

def get (b : Buffer α) (i : Nat) (h : i < b.size) : α :=
  Element.ofBytes (Vector.ofFn fun j =>
    Block.byte b.blocks (i * Element.width α + j) (b.byte_lt h j.isLt))

def toArray (b : Buffer α) : Array α := Array.ofFn fun i : Fin b.size => b.get i i.isLt

def toList (b : Buffer α) : List α := b.toArray.toList

def isEmpty (b : Buffer α) : Bool := b.size == 0

/-- Element `i` replaced, where there is one. -/
def setIfInBounds (b : Buffer α) (i : Nat) (x : α) : Buffer α :=
  if i < b.size then
    { b with
      blocks := Block.setBytes b.blocks (i * Element.width α) (Element.toBytes x).toList
      room := by rw [Block.size_setBytes]; exact b.room }
  else b

def set (b : Buffer α) (i : Nat) (x : α) : Except AccessFault (Buffer α) :=
  if i < b.size then .ok (b.setIfInBounds i x) else .error .outOfRange

/-- The elements from `i` on replaced, as far as the buffer reaches. -/
def setFrom (b : Buffer α) (i : Nat) (xs : List α) : Buffer α :=
  (xs.zipIdx i).foldl (fun b (x, k) => b.setIfInBounds k x) b

def fill (b : Buffer α) (x : α) : Buffer α := b.setFrom 0 (List.replicate b.size x)

def zeroed (size : Nat) : Buffer α where
  blocks := Array.replicate (Block.count α size) (Vector.replicate _ 0)
  size
  room := by
    rw [Array.size_replicate, Block.mul_width_le_iff]
    exact Block.count_le_iff.mp (Nat.le_refl _)

def allocate? (size : Nat) : Option (Buffer α) := if fits α size then some (zeroed size) else none

def ofList (xs : List α) : Buffer α := (zeroed xs.length).setFrom 0 xs

@[simp] theorem size_zeroed (size : Nat) : (zeroed size : Buffer α).size = size := rfl

@[simp] theorem size_toArray (b : Buffer α) : b.toArray.size = b.size := Array.size_ofFn

@[simp] theorem size_setIfInBounds (b : Buffer α) (i : Nat) (x : α) :
    (b.setIfInBounds i x).size = b.size := by
  unfold setIfInBounds
  split <;> rfl

@[simp] theorem size_setFrom (b : Buffer α) (i : Nat) (xs : List α) :
    (b.setFrom i xs).size = b.size := by
  induction xs generalizing b i with
  | nil => rfl
  | cons x xs ih =>
    show ((b.setIfInBounds i x).setFrom (i + 1) xs).size = _
    rw [ih, size_setIfInBounds]

@[simp] theorem size_ofList (xs : List α) : (ofList xs).size = xs.length := by
  rw [ofList, size_setFrom, size_zeroed]

/-- The elements from `first` up to `last`, addressed from the start of the buffer. -/
def slice (b : Buffer α) (first last : Nat) : Except AccessFault (Slice α) :=
  if first ≤ last ∧ last ≤ b.size then
    .ok ⟨first * Element.width α, b.toArray.extract first last⟩
  else .error .outOfRange

end Buffer

instance : Element UInt8 where
  width := 1
  width_dvd := by decide
  toBytes x := #v[x]
  ofBytes v := v[0]
  ofBytes_toBytes _ := rfl

namespace Single

/-- The bytes of a number, the lowest first. -/
def toBytes (x : Single) : Vector UInt8 4 :=
  Vector.ofFn fun i => UInt8.ofNat (x.bits.toNat >>> (8 * i.val))

def ofByteList (bytes : List UInt8) : Single :=
  ⟨UInt32.ofNat (bytes.foldr (fun b n => b.toNat + 256 * n) 0)⟩

def ofBytes (v : Vector UInt8 4) : Single := ofByteList v.toList

theorem toList_toBytes (x : Single) :
    x.toBytes.toList = (List.range 4).map fun k => UInt8.ofNat (x.bits.toNat >>> (8 * k)) := rfl

theorem ofByteList_toBytes (x : Single) : ofByteList x.toBytes.toList = x := by
  obtain ⟨bits⟩ := x
  have small := bits.toNat_lt
  rw [toList_toBytes, ofByteList, Single.mk.injEq]
  apply UInt32.toNat.inj
  have places : (bits.toNat % 256 + 256 * (bits.toNat / 256 % 256 +
      256 * (bits.toNat / 65536 % 256 + 256 * (bits.toNat / 16777216 % 256)))) % 4294967296 =
        bits.toNat := by omega
  simpa [List.range_succ, Nat.shiftRight_eq_div_pow] using places

theorem ofBytes_toBytes (x : Single) : ofBytes (toBytes x) = x := ofByteList_toBytes x

instance : Element Single where
  width := 4
  width_dvd := by decide
  toBytes := toBytes
  ofBytes := ofBytes
  ofBytes_toBytes := ofBytes_toBytes

end Single

namespace Complex

/-- The bytes of both parts, the real part first. -/
def toBytes (z : Complex Single) : Vector UInt8 8 := z.re.toBytes ++ z.im.toBytes

def ofBytes (v : Vector UInt8 8) : Complex Single :=
  ⟨.ofByteList (v.toList.take 4), .ofByteList (v.toList.drop 4)⟩

theorem ofBytes_toBytes (z : Complex Single) : ofBytes (toBytes z) = z := by
  obtain ⟨re, im⟩ := z
  have parts : (toBytes ⟨re, im⟩).toList = re.toBytes.toList ++ im.toBytes.toList :=
    Vector.toList_append
  have four : re.toBytes.toList.length = 4 := Vector.length_toList
  rw [ofBytes, parts, List.take_left' four, List.drop_left' four, Single.ofByteList_toBytes,
    Single.ofByteList_toBytes]

instance : Element (Complex Single) where
  width := 8
  width_dvd := by decide
  toBytes := toBytes
  ofBytes := ofBytes
  ofBytes_toBytes := ofBytes_toBytes

end Complex
end SimdDispatch
