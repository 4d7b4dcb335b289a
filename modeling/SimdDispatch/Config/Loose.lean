import SimdDispatch.Setting
import SimdDispatch.Text
import SimdDispatch.Toml.Quoted

/-!
The values of environment variables. They are written without ceremony: quotes are needed only for
texts that look like something else, and what fits no form is taken as it stands.
-/
namespace SimdDispatch.Loose

open Scanner

/-- A quoted text that ends within a character where it is cut. -/
structure SplitCharacter
deriving DecidableEq

/-- Readers of values. A text that cannot be cut ends the reading, and no other form is tried. -/
abbrev Reader (α : Type) := ExceptT SplitCharacter Scanner α

def isBlank (c : Char) : Bool := c == ' ' || c == '\t' || c == '\n' || c == '\x0c' || c == '\r'

def isSeparator (c : Char) : Bool := c ∈ [',', '\x7b', '\x7d', '[', ']']

def blanks : Scanner Unit := skipWhile isBlank

def notNext (c : Char) : Scanner Unit := do
  if (← peek) == some c then failure

/-- Whether digits write a number of at most so much. -/
def isNatural (limit : Nat) (ds : List Char) : Bool :=
  !ds.isEmpty && ds.all Char.isDigit && ds.foldl (fun n c => 10 * n + (c.toNat - '0'.toNat)) 0 ≤ limit

def isInteger : List Char → Bool
  | '+' :: ds => isNatural (UInt64.size - 1) ds
  | '-' :: ds => isNatural (1 <<< 63) ds
  | ds => isNatural (UInt64.size - 1) ds

/-- A number with a point; there is a digit on one side of it at least. -/
def isPointed (s : List Char) : Bool :=
  let scan : Scanner Unit := do
    discard (optional (satisfy fun c => c == '+' || c == '-'))
    let whole ← takeWhile Char.isDigit
    char '.'
    let fraction ← takeWhile Char.isDigit
    if whole.isEmpty && fraction.isEmpty then failure
    discard (optional (do
      discard (satisfy fun c => c == 'e' || c == 'E')
      discard (optional (satisfy fun c => c == '+' || c == '-'))
      takeSome Char.isDigit))
    finished
  (scan.run s).isSome

def plain (s : List Char) : Setting :=
  if isPointed s || isInteger s then .number else .text (String.ofList s)

def firstBytes : Nat → List Char → Except SplitCharacter (List Char)
  | 0, _ | _, [] => .ok []
  | n, c :: rest =>
    if c.utf8Size ≤ n then (c :: ·) <$> firstBytes (n - c.utf8Size) rest else .error .mk

/-- What stands between double quotes; a quote after a backslash ends nothing. -/
def between : Scanner (List Char) := do
  char '"'
  let pieces ← many (
    (do char '\\'; return ['\\', ← next]) <|>
      List.singleton <$> satisfy fun c => c != '"' && c != '\\')
  char '"'
  return pieces.flatten

/-- The text that is written between double quotes. A text with escapes keeps of what stands before
the first one only as many bytes as that has characters. -/
def unescape (inner : List Char) : Option (Except SplitCharacter (List Char)) := do
  let start := inner.takeWhile (· != '\\')
  guard (start.all (Toml.isVerbatim .basic))
  if start.length = inner.length then return .ok start
  match firstBytes start.length start with
  | .error e => return .error e
  | .ok kept =>
    let escapes := String.ofList (inner.drop start.length)
    let pieces ← readAll (many (Toml.linePiece .basic)) escapes
    return .ok (kept ++ pieces.flatten)

def quoted : Reader String := ExceptT.mk do
  let inner ← between
  return String.ofList <$> (← unescape inner)

def key : Reader String := do
  match ← peek with
  | some '"' => quoted
  | _ => return String.ofList (← takeSome Toml.isBare)

/-- A value without double quotes that holds no other values. -/
def unquoted : Scanner Setting :=
  (do literal "true"; return .flag true) <|> (do literal "false"; return .flag false) <|> do
    match ← peek with
    | some '\'' => do
      char '\''
      let c ← next
      char '\''
      return .text c.toString
    | _ => do return plain (Text.trimWhile Text.isBlank (← takeWhile (!isSeparator ·)))

/-- As many items as can be read, if each takes a character at least. -/
def manyItems {α : Type} (item : Reader α) : Reader (List α) := ExceptT.mk do
  return (← many item.run).mapM id

/-- Items between two marks, with separating commas; the last mark may follow a comma at once. -/
def items {α : Type} (first last : Char) (item : Reader α) : Reader (List α) := do
  char first
  let found ← manyItems (do
    notNext last
    let a ← item
    if (← peek) != some last then char ','
    return a)
  char last
  return found

def tableOf (entries : List (String × Setting)) : Setting :=
  .table (entries.foldl (fun t (k, v) => Settings.insert k v t) [])

def entry (value : Reader Setting) : Reader (String × Setting) := do
  blanks
  let k ← key
  blanks
  char '='
  return (k, ← value)

/-- A value, with the blanks around it, nested less than `depth` deep. -/
def value : Nat → Reader Setting
  | 0 => ExceptT.lift failure
  | depth + 1 => do
    blanks
    let found ← match ← peek with
      | some '"' => Setting.text <$> quoted
      | some '[' => Setting.list <$> items '[' ']' (value depth)
      | some '\x7b' => tableOf <$> items '\x7b' '\x7d' (entry (value depth))
      | _ => unquoted
    blanks
    return found

def read (s : String) : Except SplitCharacter Setting :=
  let whole : Reader Setting := do
    let found ← value (s.length + 1)
    finished
    return found
  match whole.run.run s.toList with
  | some (found, _) => found
  | none => .ok (.text s)

end SimdDispatch.Loose
