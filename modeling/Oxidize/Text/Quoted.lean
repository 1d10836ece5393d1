import Oxidize.Text.Basic
import Oxidize.Text.EscapeTable

/-!
# Quoted texts

`quoted` shows a text between double quotes so that every character of it can be told apart: quotes,
backslashes and line ends by short escapes, characters without a shape of their own by their number
in braces.
-/

namespace Oxidize.Text

/-- Whether a character is shown by its number. -/
def isShapeless (c : Char) : Bool :=
  inRanges c.toNat shapelessRanges

/-- How a character is shown between double quotes. -/
def quotedChar (c : Char) : Text :=
  if c = '"' then "\\\""
  else if c = '\\' then "\\\\"
  else if c = '\n' then "\\n"
  else if c = '\r' then "\\r"
  else if c = '\t' then "\\t"
  else if c = '\x00' then "\\0"
  else if isShapeless c then "\\u\x7b" ++ digits 16 c.toNat ++ ['}']
  else [c]

/-- The text between double quotes, with escapes. -/
def quoted (t : Text) : Text :=
  '"' :: t.flatMap quotedChar ++ ['"']

end Oxidize.Text
