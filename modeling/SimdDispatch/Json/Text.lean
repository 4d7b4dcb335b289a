import SimdDispatch.Text.Escape

/-!
Texts in JSON documents, by the characters between their quotes. A character outside the basic
plane may be escaped as a pair of surrogates; a surrogate alone stands for nothing.
-/
namespace SimdDispatch.Json

def shortEscape? (c : Char) : Option Char :=
  match c with
  | '"' => some '"'
  | '\\' => some '\\'
  | '/' => some '/'
  | 'b' => some '\x08'
  | 'f' => some '\x0c'
  | 'n' => some '\n'
  | 'r' => some '\r'
  | 't' => some '\t'
  | _ => none

def isHighSurrogate (n : Nat) : Bool := 0xD800 ≤ n && n ≤ 0xDBFF

def isLowSurrogate (n : Nat) : Bool := 0xDC00 ≤ n && n ≤ 0xDFFF

/-- The number of a character from the two halves of its escape. -/
def joinSurrogates (high low : Nat) : Nat := 0x10000 + (high - 0xD800) * 0x400 + (low - 0xDC00)

def decode : List Char → Option (List Char)
  | [] => some []
  | '\\' :: 'u' :: a :: b :: c :: d :: '\\' :: 'u' :: e :: f :: g :: h :: rest =>
    let first := Text.hexNumber [a, b, c, d]
    let second := Text.hexNumber [e, f, g, h]
    if isHighSurrogate first then
      if isLowSurrogate second then
        (Char.ofNat (joinSurrogates first second) :: ·) <$> decode rest
      else none
    else do
      let x ← Text.scalar? first
      (x :: ·) <$> decode ('\\' :: 'u' :: e :: f :: g :: h :: rest)
  | '\\' :: 'u' :: a :: b :: c :: d :: rest => do
    let x ← Text.scalar? (Text.hexNumber [a, b, c, d])
    (x :: ·) <$> decode rest
  | '\\' :: c :: rest => do
    let x ← shortEscape? c
    (x :: ·) <$> decode rest
  | c :: rest => (c :: ·) <$> decode rest

/-- The characters up to the closing quote, which is taken: every escape is complete, and there
are no control characters. -/
def scanText : List Char → Option (List Char × List Char)
  | '"' :: rest => some ([], rest)
  | '\\' :: 'u' :: a :: b :: c :: d :: rest =>
    if [a, b, c, d].all Text.isHexDigit then do
      let (body, rest) ← scanText rest
      return ('\\' :: 'u' :: a :: b :: c :: d :: body, rest)
    else none
  | '\\' :: c :: rest =>
    if (shortEscape? c).isSome then do
      let (body, rest) ← scanText rest
      return ('\\' :: c :: body, rest)
    else none
  | c :: rest =>
    if c < ' ' then none else do
      let (body, rest) ← scanText rest
      return (c :: body, rest)
  | [] => none

def encodeChar (c : Char) : List Char :=
  match c with
  | '"' => ['\\', '"']
  | '\\' => ['\\', '\\']
  | '\x08' => ['\\', 'b']
  | '\x0c' => ['\\', 'f']
  | '\n' => ['\\', 'n']
  | '\r' => ['\\', 'r']
  | '\t' => ['\\', 't']
  | c => if c < ' ' then '\\' :: 'u' :: Text.fourHexDigits c.toNat else [c]

def encode (s : List Char) : List Char := s.flatMap encodeChar

end SimdDispatch.Json
