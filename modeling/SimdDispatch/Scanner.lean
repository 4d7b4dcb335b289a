/-!
Readers of text. A scanner takes characters from the front of a text and says what they stand for;
one that fails takes nothing, so that another can be tried in its place.
-/
namespace SimdDispatch

abbrev Scanner (α : Type) := StateT (List Char) Option α

namespace Scanner

variable {α β : Type}

def next : Scanner Char := fun cs => match cs with
  | [] => none
  | c :: rest => some (c, rest)

/-- The next character, if there is one; it is not taken. -/
def peek : Scanner (Option Char) := fun cs => some (cs.head?, cs)

def satisfy (p : Char → Bool) : Scanner Char := fun cs => match cs with
  | [] => none
  | c :: rest => if p c then some (c, rest) else none

def char (c : Char) : Scanner Unit := discard (satisfy (· == c))

def literal (s : String) : Scanner Unit := s.toList.forM char

def takeWhile (p : Char → Bool) : Scanner (List Char) := fun cs =>
  some (cs.takeWhile p, cs.dropWhile p)

def takeSome (p : Char → Bool) : Scanner (List Char) := do
  let first ← satisfy p
  return first :: (← takeWhile p)

def skipWhile (p : Char → Bool) : Scanner Unit := discard (takeWhile p)

def finished : Scanner Unit := fun cs => if cs.isEmpty then some ((), []) else none

/-- Items read by `p` up to where it fails, at most one for each character of `fuel`. -/
def upTo (p : Scanner α) (fuel cs : List Char) : List α × List Char :=
  match fuel with
  | [] => ([], cs)
  | _ :: fuel => match p cs with
    | none => ([], cs)
    | some (a, rest) =>
      let (as, rest) := upTo p fuel rest
      (a :: as, rest)

/-- As many items as `p` reads, if each takes a character at least. -/
def many (p : Scanner α) : Scanner (List α) := fun cs => some (upTo p cs cs)

def sepBy (item : Scanner α) (separator : Scanner Unit) : Scanner (List α) := do
  let first ← item
  return first :: (← many (do separator; item))

def readAll (p : Scanner α) (s : String) : Option α :=
  (·.1) <$> (do let a ← p; finished; return a : Scanner α).run s.toList

end Scanner
end SimdDispatch
