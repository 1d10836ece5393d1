import Oxidize.Text.WordTable

/-!
# Character classes

The classes of characters that texts are cut and matched by: `isSpace` (the Unicode property
White_Space), `isAsciiSpace` (its five members that separate ASCII text) and `isWord` (letters,
marks, digits and connectors).
-/

namespace Oxidize.Text

/-- Whether a number lies in one of the closed ranges, which are in increasing order. -/
def inRanges (n : Nat) : List (Nat × Nat) → Bool
  | [] => false
  | (lo, hi) :: rest => if n < lo then false else n ≤ hi || inRanges n rest

/-- The white space of Unicode, as closed ranges of code points in increasing order. -/
def spaceRanges : List (Nat × Nat) := [
  (0x9, 0xD), (0x20, 0x20), (0x85, 0x85), (0xA0, 0xA0), (0x1680, 0x1680), (0x2000, 0x200A),
  (0x2028, 0x2029), (0x202F, 0x202F), (0x205F, 0x205F), (0x3000, 0x3000)]

/-- White space: the characters that trimming removes and that separate words. -/
def isSpace (c : Char) : Bool :=
  inRanges c.toNat spaceRanges

/-- The white space of ASCII, without the vertical tab. -/
def isAsciiSpace (c : Char) : Bool :=
  c = ' ' || c = '\t' || c = '\n' || c = '\x0c' || c = '\r'

/-- The characters of words. -/
def isWord (c : Char) : Bool :=
  inRanges c.toNat wordRanges

theorem inRanges_nil (n : Nat) : inRanges n [] = false := rfl

theorem inRanges_cons (n lo hi : Nat) (rest : List (Nat × Nat)) :
    inRanges n ((lo, hi) :: rest) = if n < lo then false else (n ≤ hi || inRanges n rest) := by
  simp [inRanges]

end Oxidize.Text
