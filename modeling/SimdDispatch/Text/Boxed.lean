import SimdDispatch.Text

/-!
Tables drawn with lines. Columns are as wide as their widest cell and one blank on either side;
a double line stands under the heading and a broken one between rows.
-/
namespace SimdDispatch.Text

/-- A line across a table: its left end, what it is made of, its crossings and its right end. -/
structure Rule where
  left : Char
  stroke : Char
  crossing : Char
  right : Char

namespace Rule

def top : Rule := ⟨'┌', '─', '┬', '┐'⟩
def heading : Rule := ⟨'╞', '═', '╪', '╡'⟩
def inner : Rule := ⟨'├', '╌', '┼', '┤'⟩
def bottom : Rule := ⟨'└', '─', '┴', '┘'⟩

def draw (r : Rule) (widths : List Nat) : String :=
  String.ofList (r.left ::
    [r.crossing].intercalate (widths.map fun w => List.replicate (w + 2) r.stroke) ++ [r.right])

end Rule

def columnWidths (rows : List (List String)) : List Nat :=
  rows.foldl (fun widths row =>
    (List.range (max widths.length row.length)).map fun i =>
      max (widths[i]?.getD 0) ((row[i]?.getD "").length)) []

def rowLine (widths : List Nat) (row : List String) : String :=
  let cells := widths.zipIdx.map fun (w, i) =>
    let cell := row[i]?.getD ""
    " " ++ cell ++ String.ofList (List.replicate (w - cell.length) ' ') ++ " "
  "│" ++ joinWith "┆" cells ++ "│"

def boxed (heading : List String) (rows : List (List String)) : String :=
  let widths := columnWidths (heading :: rows)
  let body := (rows.map (rowLine widths)).intersperse (Rule.inner.draw widths)
  joinWith "\n" ([Rule.top.draw widths, rowLine widths heading, Rule.heading.draw widths] ++ body ++
    [Rule.bottom.draw widths])

end SimdDispatch.Text
