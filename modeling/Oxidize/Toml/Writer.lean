import Oxidize.Toml.Value

/-!
# Writing TOML

A string is written in the plainest way that can hold it: between double quotes if nothing has to be
escaped, otherwise between single quotes, otherwise between three double or three single quotes, and
with escapes only if all these fail. A string with line ends stands between three quotes and begins
on a line of its own. A sheet is written with one assignment to a line and a header for each item of
its list.
-/

namespace Oxidize.Toml

/-- Whether a character can only be written by an escape. -/
def needsEscape (c : Char) : Bool :=
  c ≠ '\t' && c ≠ '\n' && (c < ' ' || c = '\x7f')

/-- The length of the longest run of a character, for a run of length `run` in front. -/
def longestRun (q : Char) (run : Nat) : Text → Nat
  | [] => run
  | c :: r => if c = q then longestRun q (run + 1) r else max run (longestRun q 0 r)

/-- The ways to write a string. -/
inductive Style
  | basic
  | literal
  | longBasic
  | longLiteral
  deriving DecidableEq

/-- The way in which a string is written. -/
def styleOf (t : Text) : Style :=
  let escapes := t.any needsEscape
  let backslash := t.contains '\\'
  let newline := t.contains '\n'
  let doubles := longestRun '"' 0 t
  let singles := longestRun '\'' 0 t
  if !escapes && !backslash && doubles = 0 && !newline then .basic
  else if !escapes && singles = 0 && !newline then .literal
  else if !escapes && !backslash && doubles ≤ 2 then .longBasic
  else if !escapes && singles ≤ 2 then .longLiteral
  else if newline then .longBasic
  else .basic

/-- A number as four hexadecimal digits. -/
def fourDigits (n : Nat) : Text :=
  let ds := (Nat.toDigits 16 n).map Char.toUpper
  List.replicate (4 - ds.length) '0' ++ ds

/-- How a character that is no double quote is written between double quotes. -/
def escapedText (long : Bool) (c : Char) : Text :=
  if c = '\x08' then "\\b"
  else if c = '\t' then "\\t"
  else if c = '\n' then if long then [c] else "\\n"
  else if c = '\x0c' then "\\f"
  else if c = '\r' then "\\r"
  else if c = '\\' then "\\\\"
  else if needsEscape c then "\\u" ++ fourDigits c.toNat
  else [c]

/-- The inside of a string between double quotes. Of the double quotes in it at most two in a row
stay as they are in a long string, and none in a short one; `run` are those that stand in front. -/
def escaped (long : Bool) (run : Nat) : Text → Text
  | [] => []
  | c :: r =>
    if c = '"' then
      if long && run < 2 then c :: escaped long (run + 1) r
      else '\\' :: c :: escaped long 0 r
    else escapedText long c ++ escaped long 0 r

/-- The line end at the start of a string between three quotes. -/
def opening (t : Text) : Text :=
  if t.contains '\n' then ['\n'] else []

/-- The written form of a string. -/
def writeString (t : Text) : Text :=
  match styleOf t with
  | .basic => "\"" ++ escaped false 0 t ++ "\""
  | .literal => "'" ++ t ++ "'"
  | .longBasic => "\"\"\"" ++ opening t ++ escaped true 0 t ++ "\"\"\""
  | .longLiteral => "'''" ++ opening t ++ t ++ "'''"

/-- The written form of a scalar. -/
def Scalar.write : Scalar → Text
  | text t => writeString t
  | natural n => Text.ofNat n
  | boolean b => if b then "true" else "false"

/-- A line that gives a key a value. -/
def entry (key value : Text) : Text :=
  key ++ " = " ++ value ++ "\n"

/-- The written form of a record. -/
def Record.write (r : Record) : Text :=
  r.fields.flatMap fun f => entry f.1 f.2.write

/-- The written form of an item of the list under a key. -/
def Record.writeItem (key : Text) (r : Record) : Text :=
  "\n[[" ++ key ++ "]]\n" ++ r.write

/-- The document of a sheet, unless a number in it is no integer of 64 bits. -/
def Sheet.write? (s : Sheet) : Option Text :=
  if s.fits then
    some (s.top.write ++
      if s.items.isEmpty then entry s.key "[]" else s.items.flatMap (Record.writeItem s.key))
  else none

end Oxidize.Toml
