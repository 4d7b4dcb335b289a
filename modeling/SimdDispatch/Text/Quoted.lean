import SimdDispatch.Text
import SimdDispatch.Text.Invisible

/-!
Texts between double quotes, as descriptions of values show them. Quotes, backslashes and
characters that leave no mark of their own are escaped.
-/
namespace SimdDispatch.Text

def escaped (c : Char) : String :=
  if c == '\x00' then "\\0"
  else if c == '\t' then "\\t"
  else if c == '\r' then "\\r"
  else if c == '\n' then "\\n"
  else if c == '"' then "\\\""
  else if c == '\\' then "\\\\"
  else if isInvisible c then "\\u\x7b" ++ String.ofList (Nat.toDigits 16 c.toNat) ++ "\x7d"
  else c.toString

def quoted (s : String) : String := "\"" ++ String.join (s.toList.map escaped) ++ "\""

end SimdDispatch.Text
