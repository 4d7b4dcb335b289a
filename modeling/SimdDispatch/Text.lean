/-!
Blanks at the ends of a text. A blank is a character with the White_Space property, of which
there are twenty-five; all of them lie in the ten ranges listed here.
-/
namespace SimdDispatch.Text

/-- The ranges of the White_Space property, ends included. -/
def blankRanges : List (Nat × Nat) :=
  [(0x09, 0x0D), (0x20, 0x20), (0x85, 0x85), (0xA0, 0xA0), (0x1680, 0x1680), (0x2000, 0x200A),
   (0x2028, 0x2029), (0x202F, 0x202F), (0x205F, 0x205F), (0x3000, 0x3000)]

def isBlank (c : Char) : Bool :=
  blankRanges.any fun (first, last) => first ≤ c.toNat && c.toNat ≤ last

/-- A list without the elements at either end that satisfy `p`. -/
def trimWhile (p : Char → Bool) (cs : List Char) : List Char :=
  ((cs.dropWhile p).reverse.dropWhile p).reverse

def trim (s : String) : String := String.ofList (trimWhile isBlank s.toList)

def joinWith (separator : String) (parts : List String) : String := separator.intercalate parts

/-- A number in lowercase hexadecimal, marked as such. -/
def hexadecimal (n : Nat) : String := "0x" ++ String.ofList (Nat.toDigits 16 n)

end SimdDispatch.Text
