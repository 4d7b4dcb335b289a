import SimdDispatch.Buffer

/-!
Buffers side by side, numbered in the order in which they are made. An operation makes one more of
them or changes one; an operation that is refused changes nothing.
-/
namespace SimdDispatch.Buffers

inductive Operation (α : Type) where
  | zeroed (size : Nat)
  | ofList (values : List α)
  | clone (source : Nat)
  | set (target index : Nat) (value : α)
  | fill (target : Nat) (value : α)

/-- The buffer that an operation changes. -/
def Operation.target? {α : Type} : Operation α → Option Nat
  | zeroed _ | ofList _ | clone _ => none
  | set k _ _ | fill k _ => some k

variable {α : Type} [Element α]

/-- The buffers after an operation. It is refused if there is no such buffer or element, or if the
new buffer would have too many bytes. -/
def step (bs : List (Buffer α)) : Operation α → Option (List (Buffer α))
  | .zeroed size => (Buffer.allocate? size).map fun b => bs ++ [b]
  | .ofList values =>
    if Buffer.fits α values.length then some (bs ++ [.ofList values]) else none
  | .clone k => bs[k]?.map fun b => bs ++ [b]
  | .set k i x => bs[k]?.bind fun b => (b.set i x).toOption.map (bs.set k)
  | .fill k x => bs[k]?.map fun b => bs.set k (b.fill x)

def run (bs : List (Buffer α)) (operations : List (Operation α)) : List (Buffer α) :=
  operations.foldl (fun bs o => (step bs o).getD bs) bs

end SimdDispatch.Buffers
