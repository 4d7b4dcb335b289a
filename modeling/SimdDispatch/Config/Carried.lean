import SimdDispatch.Setting

/-!
Values that tables carry. Below the top of a document a table may stand for a value, which it has
under a key of its own; what else is in the table does not count then.
-/
namespace SimdDispatch

/-- The key of the value that a table stands for. -/
def carriedKey : String := "___figment_value_value"

/-- The key of the source that a value comes from. Sources have no written form. -/
def sourceKey : String := "___figment_value_id"

mutual

/-- A setting with every table in it that carries a value replaced by that value; none if a table
tells the source of something. -/
def Setting.uncarried? : Setting → Option Setting
  | .table entries => do
    let inner ← Settings.uncarried? entries
    if (inner.lookup sourceKey).isSome then none
    return (inner.lookup carriedKey).getD (.table inner)
  | .list items => .list <$> Setting.allUncarried? items
  | scalar => some scalar

def Settings.uncarried? : List (String × Setting) → Option Settings
  | [] => some []
  | (key, value) :: rest => do return (key, ← Setting.uncarried? value) :: (← Settings.uncarried? rest)

def Setting.allUncarried? : List Setting → Option (List Setting)
  | [] => some []
  | item :: rest => do return (← Setting.uncarried? item) :: (← Setting.allUncarried? rest)

end

end SimdDispatch
