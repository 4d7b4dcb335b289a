import SimdDispatch.BinaryFormat
import SimdDispatch.Scanner
import SimdDispatch.Text.Escape

/-!
Numbers, dates and times in TOML documents. Only their form is checked, and that they are in range:
no setting of this library takes one.
-/
namespace SimdDispatch.Toml

open Scanner

def isSign (c : Char) : Bool := c == '+' || c == '-'

/-- Digits, with single underscores between them. -/
def digits (p : Char → Bool) : Scanner (List Char) := do
  let first ← satisfy p
  return first :: (← many (do discard (optional (char '_')); satisfy p))

/-- A whole number in decimal digits: whether it is negative, and its digits. -/
def decimal : Scanner (Bool × List Char) := do
  let sign ← optional (satisfy isSign)
  let ds ← (do char '0'; return ['0']) <|> digits Char.isDigit
  return (sign == some '-', ds)

def numberOf (base : Nat) (ds : List Char) : Nat :=
  ds.foldl (fun n c => base * n + Text.hexValue c) 0

/-- A whole number in the digits of another base, with a mark before it. -/
def marked (mark : String) (base : Nat) (p : Char → Bool) : Scanner Unit := do
  literal mark
  let ds ← digits p
  if numberOf base ds < 1 <<< 63 then return
  failure

def integer : Scanner Unit :=
  marked "0x" 16 Text.isHexDigit <|> marked "0o" 8 (fun c => '0' ≤ c && c ≤ '7') <|>
    marked "0b" 2 (fun c => c == '0' || c == '1') <|> do
      let (negative, ds) ← decimal
      let n := numberOf 10 ds
      if n < 1 <<< 63 || (negative && n == 1 <<< 63) then return
      failure

def exponent : Scanner Int := do
  discard (satisfy fun c => c == 'e' || c == 'E')
  let sign ← optional (satisfy isSign)
  let size := numberOf 10 (← digits Char.isDigit)
  return if sign == some '-' then -(size : Int) else size

/-- Whether `n * 10 ^ e` is rounded to infinity in eight bytes: it is at least the middle between
the largest number and the next power of two. -/
def overflows (n : Nat) (e : Int) : Bool :=
  let size : Int := (Nat.toDigits 10 n).length + e
  if n = 0 || size < 300 then false
  else if size > 320 then true
  else
    let unit := Nat.pow 10 (-e).toNat
    unit <<< 1024 ≤ n * Nat.pow 10 e.toNat + unit <<< 970

/-- A number with a point or an exponent; positive ones must not be rounded to infinity. -/
def float : Scanner Unit := do
  let (negative, whole) ← decimal
  let fraction ← optional (do char '.'; digits Char.isDigit)
  let power ← if fraction.isSome then optional exponent else some <$> exponent
  let ds := fraction.getD []
  if !negative && overflows (numberOf 10 (whole ++ ds)) (power.getD 0 - ds.length) then failure

def special : Scanner Unit := do
  discard (optional (satisfy isSign))
  literal "inf" <|> literal "nan"

def field (width low high : Nat) : Scanner Nat := do
  let n := numberOf 10 (← (List.replicate width ()).mapM fun _ => satisfy Char.isDigit)
  if low ≤ n && n ≤ high then return n
  failure

def isLeapYear (year : Nat) : Bool := year % 4 == 0 && (year % 100 != 0 || year % 400 == 0)

def daysOf (year month : Nat) : Nat :=
  if month = 2 then if isLeapYear year then 29 else 28
  else if month ∈ [4, 6, 9, 11] then 30
  else 31

def date : Scanner Unit := do
  let year ← field 4 0 9999
  char '-'
  let month ← field 2 1 12
  char '-'
  discard (field 2 1 (daysOf year month))

def time : Scanner Unit := do
  discard (field 2 0 23)
  char ':'
  discard (field 2 0 59)
  char ':'
  discard (field 2 0 60)
  discard (optional (do char '.'; takeSome Char.isDigit))

def zone : Scanner Unit :=
  discard (satisfy fun c => c == 'Z' || c == 'z') <|> do
    discard (satisfy isSign)
    discard (field 2 0 23)
    char ':'
    discard (field 2 0 59)

def moment : Scanner Unit :=
  (do
    date
    discard (optional (do
      discard (satisfy fun c => c == 'T' || c == 't' || c == ' ')
      time
      optional zone))) <|> time

end SimdDispatch.Toml
