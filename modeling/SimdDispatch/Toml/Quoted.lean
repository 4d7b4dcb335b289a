import SimdDispatch.Scanner
import SimdDispatch.Text.Escape

/-!
Quoted texts and keys in TOML documents. There are four kinds of quotes: with escapes or without,
on one line or on several. Writing takes the plainest kind that can hold a text.
-/
namespace SimdDispatch.Toml

open Scanner

def isTab (c : Char) : Bool := c == '\t'

def isBlank (c : Char) : Bool := c == ' ' || isTab c

def isControl (c : Char) : Bool := c.toNat < 0x20 || c.toNat == 0x7F

def isForbidden (c : Char) : Bool := isControl c && !isTab c

def needsEscape (c : Char) : Bool := isForbidden c && c != '\n'

def isBare (c : Char) : Bool := c.isAlphanum || c == '_' || c == '-'

inductive Quotes where
  | basic
  | literal
  | basicLines
  | literalLines
deriving DecidableEq

namespace Quotes

def mark : Quotes → List Char
  | basic => ['"']
  | literal => ['\'']
  | basicLines => ['"', '"', '"']
  | literalLines => ['\'', '\'', '\'']

def hasEscapes : Quotes → Bool
  | basic | basicLines => true
  | literal | literalLines => false

def hasLines : Quotes → Bool
  | basic | literal => false
  | basicLines | literalLines => true

end Quotes

/-- The longest run of `q`, `here` of them standing just before. -/
def longestRun (q : Char) (here : Nat) : List Char → Nat
  | [] => here
  | c :: rest => if c = q then longestRun q (here + 1) rest else max here (longestRun q 0 rest)

def valueQuotes (s : List Char) : Quotes :=
  let oneLine := !s.contains '\n'
  let escapes := s.any needsEscape
  if oneLine && !escapes && !s.contains '\\' && !s.contains '"' then .basic
  else if oneLine && !escapes && !s.contains '\'' then .literal
  else if !escapes && !s.contains '\\' && longestRun '"' 0 s ≤ 2 then .basicLines
  else if !escapes && longestRun '\'' 0 s ≤ 2 then .literalLines
  else if oneLine then .basic
  else .basicLines

/-- The plainest quotes for a key, or none at all. -/
def keyQuotes (s : List Char) : Option Quotes :=
  if !s.isEmpty && s.all isBare then none
  else if !s.any isForbidden && !s.contains '\\' && !s.contains '"' then some .basic
  else if !s.any isForbidden && !s.contains '\'' then some .literal
  else some .basic

def escape? (c : Char) : Option (List Char) :=
  match c with
  | '\x08' => some ['\\', 'b']
  | '\t' => some ['\\', 't']
  | '\n' => some ['\\', 'n']
  | '\x0c' => some ['\\', 'f']
  | '\r' => some ['\\', 'r']
  | '\\' => some ['\\', '\\']
  | c =>
    if isControl c then some ('\\' :: 'u' :: (Text.fourHexDigits c.toNat).map Char.toUpper) else none

/-- Characters between double quotes, `allowed` of which may stand in a row; `run` already do. -/
def escapeAll (lines : Bool) (allowed run : Nat) : List Char → List Char
  | [] => []
  | '"' :: rest =>
    if run < allowed then '"' :: escapeAll lines allowed (run + 1) rest
    else '\\' :: '"' :: escapeAll lines allowed 0 rest
  | c :: rest =>
    (if lines && c == '\n' then [c] else (escape? c).getD [c]) ++ escapeAll lines allowed 0 rest

/-- A text between quotes. A line break after the opening ones is not part of it. -/
def write (q : Quotes) (s : List Char) : List Char :=
  q.mark ++ (if q.hasLines && s.contains '\n' then ['\n'] else []) ++
    (if q.hasEscapes then escapeAll q.hasLines (if q.hasLines then 2 else 0) 0 s else s) ++ q.mark

def writeValue (s : List Char) : List Char := write (valueQuotes s) s

def writeKey (s : List Char) : List Char :=
  match keyQuotes s with
  | none => s
  | some q => write q s

def newline : Scanner Unit := char '\n' <|> literal "\r\n"

def hexEscape (digits : Nat) : Scanner Char := do
  let cs ← (List.replicate digits ()).mapM fun _ => satisfy Text.isHexDigit
  match Text.scalar? (Text.hexNumber cs) with
  | some c => return c
  | none => failure

def escaped : Scanner Char := do
  char '\\'
  match ← next with
  | 'b' => return '\x08'
  | 'f' => return '\x0c'
  | 'n' => return '\n'
  | 'r' => return '\r'
  | 't' => return '\t'
  | '"' => return '"'
  | '\\' => return '\\'
  | 'u' => hexEscape 4
  | 'U' => hexEscape 8
  | _ => failure

/-- Characters that stand for themselves where `q` is the quote. -/
def isVerbatim (q : Quotes) (c : Char) : Bool :=
  !isForbidden c && (if q.hasEscapes then c != '"' && c != '\\' else c != '\'')

/-- A backslash at the end of a line, with the blanks and line breaks up to the next character. -/
def continuation : Scanner Unit := do
  char '\\'
  skipWhile isBlank
  newline
  discard (many (newline <|> discard (takeSome isBlank)))

/-- One or two quotes with something else after them. -/
def innerQuotes (q : Char) : Scanner (List Char) := do
  let run ← takeSome (· == q)
  if run.length ≤ 2 && (← peek).isSome then return run
  failure

/-- The closing three quotes and up to two that belong to the text. -/
def closingQuotes (q : Char) : Scanner (List Char) := do
  let run ← takeSome (· == q)
  if 3 ≤ run.length && run.length ≤ 5 then return run.drop 3
  failure

def linePiece (q : Quotes) : Scanner (List Char) :=
  List.singleton <$> (satisfy (isVerbatim q) <|> if q.hasEscapes then escaped else failure)

def linesPiece (q : Quotes) (c : Char) : Scanner (List Char) :=
  linePiece q <|> (do newline; return ['\n']) <|>
    (if q.hasEscapes then do continuation; return [] else failure) <|> innerQuotes c

def line (q : Quotes) (c : Char) : Scanner (List Char) := do
  char c
  let pieces ← many (linePiece q)
  char c
  return pieces.flatten

def lines (q : Quotes) (c : Char) : Scanner (List Char) := do
  literal (String.ofList q.mark)
  discard (optional newline)
  let pieces ← many (linesPiece q c)
  return pieces.flatten ++ (← closingQuotes c)

def text : Scanner String :=
  String.ofList <$>
    (lines .basicLines '"' <|> line .basic '"' <|> lines .literalLines '\'' <|> line .literal '\'')

def simpleKey : Scanner String :=
  String.ofList <$> (line .basic '"' <|> line .literal '\'' <|> takeSome isBare)

end SimdDispatch.Toml
