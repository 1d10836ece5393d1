import Oxidize.Text.Basic

/-!
# Characters and bounds of TOML

The characters that may stand in strings, keys and other values, what escapes stand for, and how
large numbers and how deep values may be.
-/

namespace Oxidize.Toml

/-- Whether a character may stand in a string or a comment as it is. -/
def isPrintable (c : Char) : Bool :=
  c = '\t' || (' ' ≤ c && c ≠ '\x7f')

/-- A space or a tab. -/
def isBlankChar (c : Char) : Bool :=
  c = ' ' || c = '\t'

/-- Whether a character may stand in a key without quotes. -/
def isKeyChar (c : Char) : Bool :=
  c.isAlphanum || c = '_' || c = '-'

/-- Whether a key can be written without quotes. -/
def isBareKey (key : Text) : Bool :=
  !key.isEmpty && key.all isKeyChar

/-- Whether a character can belong to a number, a truth value, a date or a time. -/
def isTokenChar (c : Char) : Bool :=
  c.isAlphanum || c = '+' || c = '-' || c = '_' || c = '.' || c = ':'

/-! ### Numbers -/

/-- The value of a digit in a base up to sixteen. -/
def digitValue? (base : Nat) (c : Char) : Option Nat :=
  let v :=
    if '0' ≤ c ∧ c ≤ '9' then c.toNat - '0'.toNat
    else if 'a' ≤ c ∧ c ≤ 'f' then c.toNat - 'a'.toNat + 10
    else if 'A' ≤ c ∧ c ≤ 'F' then c.toNat - 'A'.toNat + 10
    else base
  if v < base then some v else none

/-- The number that digits stand for. -/
def ofDigits (base : Nat) (ds : List Nat) : Nat :=
  ds.foldl (fun n d => n * base + d) 0

/-- The least integer of 64 bits. -/
def minInteger : Int := -9223372036854775808

/-- The greatest integer of 64 bits. -/
def maxInteger : Int := 9223372036854775807

/-- The greatest number of parts of a key and the greatest depth of values. -/
def maxDepth : Nat := 79

/-! ### Escapes -/

/-- The character that a letter behind a backslash stands for. -/
def escapedChar? : Char → Option Char
  | 'b' => some '\x08'
  | 't' => some '\t'
  | 'n' => some '\n'
  | 'f' => some '\x0c'
  | 'r' => some '\r'
  | '"' => some '"'
  | '\\' => some '\\'
  | _ => none

/-- The character with a given number in hexadecimal digits. -/
def numberedChar? (digits : Text) : Option Char := do
  let vs ← digits.mapM (digitValue? 16)
  let n := ofDigits 16 vs
  if n.isValidChar then some (Char.ofNat n) else none

end Oxidize.Toml
