import SimdDispatch.Decimal.Layout
import SimdDispatch.Json.Number
import SimdDispatch.Json.Text

/-!
JSON documents and their two written forms: on one line, and with one item a line. Texts and keys
are kept as the characters between their quotes, so that one which stands for no text does no harm
where nothing reads it.
-/
namespace SimdDispatch

inductive Json where
  | null
  | flag (value : Bool)
  | number (lexeme : Json.Number)
  | digits (text : String)
  | text (body : List Char)
  | list (items : List Json)
  /-- Fields in their order; a key may stand there more than once. -/
  | object (fields : List (List Char × Json))

namespace Json

/-- Four-byte numbers are positional from a millionth to below ten to the thirteenth. -/
def singles : Decimal.Layout where
  plainFrom := -6
  plainBelow := 13
  plus := true
  tie := .even
  nan := "null"
  infinity := "null"
  negativeInfinity := "null"

/-- Eight-byte numbers are positional from a hundred-thousandth to below ten to the sixteenth. -/
def doubles : Decimal.Layout := { singles with plainFrom := -5, plainBelow := 16 }

def ofString (s : String) : Json := text (encode s.toList)

def ofNat (n : Nat) : Json := digits (toString n)

/-- What is not finite is written as nothing. -/
def ofSingle (x : Single) : Json := digits (singles.single x)

/-- What is not finite is written as nothing. -/
def ofDouble (x : Float) : Json := digits (doubles.double x)

def ofFields (fields : List (String × Json)) : Json :=
  object (fields.map fun (k, v) => (encode k.toList, v))

def Number.text (n : Number) : List Char :=
  (if n.negative then ['-'] else []) ++ n.whole ++
    (if n.fraction.isEmpty then [] else '.' :: n.fraction) ++
    match n.exponent with
    | none => []
    | some (negative, ds) => 'e' :: (if negative then ['-'] else []) ++ ds

def quotes (body : List Char) : String := "\"" ++ String.ofList body ++ "\""

/-- How the items of a list or object are spaced: what stands before the first, between two, and after
the last, and what follows a key. -/
structure Spacing where
  opening : String
  between : String
  closing : String
  colon : String

def Spacing.oneLine : Spacing := ⟨"", ",", "", ":"⟩

/-- One item a line, `depth` levels deep. -/
def Spacing.lines (depth : Nat) : Spacing :=
  let line (n : Nat) := "\n" ++ String.ofList (List.replicate (2 * n) ' ')
  ⟨line (depth + 1), "," ++ line (depth + 1), line depth, ": "⟩

def Spacing.join (s : Spacing) (first last : String) (items : List String) : String :=
  if items.isEmpty then first ++ last
  else first ++ s.opening ++ Text.joinWith s.between items ++ s.closing ++ last

mutual

def render (spacing : Nat → Spacing) (depth : Nat) : Json → String
  | null => "null"
  | flag b => if b then "true" else "false"
  | number n => String.ofList n.text
  | digits s => s
  | text body => quotes body
  | list items => (spacing depth).join "[" "]" (renderItems spacing (depth + 1) items)
  | object fields =>
    (spacing depth).join "\x7b" "\x7d" (renderFields spacing depth (depth + 1) fields)

def renderItems (spacing : Nat → Spacing) (depth : Nat) : List Json → List String
  | [] => []
  | j :: rest => render spacing depth j :: renderItems spacing depth rest

def renderFields (spacing : Nat → Spacing) (outer depth : Nat) :
    List (List Char × Json) → List String
  | [] => []
  | (k, j) :: rest =>
    (quotes k ++ (spacing outer).colon ++ render spacing depth j) ::
      renderFields spacing outer depth rest

end

def compact (j : Json) : String := render (fun _ => .oneLine) 0 j

def pretty (j : Json) : String := render .lines 0 j

end Json
end SimdDispatch
