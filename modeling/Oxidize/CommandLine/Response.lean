import Oxidize.Converter

/-!
# Responses in JSON

`Response.render` shows a conversion as a JSON object over several lines: the code, whether the
conversion went without failure, and the text of the failure or null.
-/

namespace Oxidize.CommandLine

namespace Response

/-- Four digits for a character that has no escape of its own. -/
def fourDigits (n : Nat) : Text :=
  let ds := Text.digits 16 n
  List.replicate (4 - ds.length) '0' ++ ds

/-- How a character is written in a string of JSON. -/
def escape (c : Char) : Text :=
  if c = '"' then "\\\""
  else if c = '\\' then "\\\\"
  else if c = '\n' then "\\n"
  else if c = '\r' then "\\r"
  else if c = '\t' then "\\t"
  else if c = '\x08' then "\\b"
  else if c = '\x0c' then "\\f"
  else if c.toNat < 32 then "\\u" ++ fourDigits c.toNat
  else [c]

/-- A text as a string of JSON. -/
def string (t : Text) : Text :=
  '"' :: t.flatMap escape ++ ['"']

/-- A truth value of JSON. -/
def boolean (b : Bool) : Text :=
  if b then "true" else "false"

/-- A member of an object, on a line of its own. -/
def member (key value : Text) : Text :=
  "  " ++ string key ++ ": " ++ value

/-- The object that tells what came of a conversion. -/
def render (c : Conversion) : Text :=
  "\x7b\n" ++
    member "rust_code" (string c.code) ++ ",\n" ++
    member "success" (boolean c.success) ++ ",\n" ++
    member "error" (match c.failure? with
      | none => "null"
      | some f => string f.message) ++ "\n\x7d"

end Response

end Oxidize.CommandLine
