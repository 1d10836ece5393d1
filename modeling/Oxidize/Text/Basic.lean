import Oxidize.Text.CharClass

/-!
# Texts

A text is a list of characters. Here are the operations on texts that know no programming language:
cutting into lines and joining again, trimming, searching and replacing. `lines` ends a line at a
line feed and drops one carriage return before it; `unlines` puts line feeds between lines.
-/

namespace Oxidize

/-- A text, as the list of its characters. -/
abbrev Text := List Char

instance : Coe String Text := ⟨String.toList⟩

namespace Text

/-- The text without the white space at its start. -/
def trimStart (t : Text) : Text :=
  t.dropWhile isSpace

/-- The text without the white space at its end. -/
def trimEnd : Text → Text
  | [] => []
  | c :: r =>
    match trimEnd r with
    | [] => if isSpace c then [] else [c]
    | d :: s => c :: d :: s

/-- The text without the white space at both its ends. -/
def trim (t : Text) : Text :=
  trimEnd (trimStart t)

/-- Whether a text holds white space only. -/
def isBlank (t : Text) : Bool :=
  t.all isSpace

/-- Whether `t` begins with `p`. -/
def startsWith (t p : Text) : Bool :=
  p.isPrefixOf t

/-- Whether `p` occurs in `t`. -/
def includes (t p : Text) : Bool :=
  match t with
  | [] => p.isEmpty
  | c :: r => p.isPrefixOf (c :: r) || includes r p

/-- Put a character in front of the first line. -/
def extendFirst (c : Char) : List Text → List Text
  | [] => [[c]]
  | l :: ls => (c :: l) :: ls

/-- The lines of a text. A line feed ends a line, together with one carriage return before it; what
follows the last line feed is a line if it is not empty. -/
def lines : Text → List Text
  | [] => []
  | '\n' :: r => [] :: lines r
  | '\r' :: '\n' :: r => [] :: lines r
  | c :: r => extendFirst c (lines r)

/-- The lines with a line feed between each two. -/
def unlines : List Text → Text
  | [] => []
  | [l] => l
  | l :: ls => l ++ '\n' :: unlines ls

/-- Replace the occurrences of `p` by `q` from left to right, where the first `skip` characters
belong to an occurrence that is already replaced. -/
def replaceFrom (p q : Text) : (skip : Nat) → Text → Text
  | _, [] => []
  | skip + 1, _ :: r => replaceFrom p q skip r
  | 0, c :: r =>
    if p.isPrefixOf (c :: r) then q ++ replaceFrom p q (p.length - 1) r
    else c :: replaceFrom p q 0 r

/-- Replace every occurrence of `p` by `q`, from left to right and without overlaps. An empty `p`
occurs nowhere. -/
def replaceAll (t p q : Text) : Text :=
  if p.isEmpty then t else replaceFrom p q 0 t

/-- The text on one line: every line feed becomes a space. -/
def oneLine (t : Text) : Text :=
  t.map fun c => if c = '\n' then ' ' else c

/-- A text of `n` spaces. Texts have any length here: a program that runs out of memory for one, or
refuses to allocate it, is not modelled. -/
def spaces (n : Nat) : Text :=
  List.replicate n ' '

/-- The digits of a number in a base up to sixteen, in lower case. -/
def digits (base n : Nat) : Text :=
  Nat.toDigits base n

/-- The decimal digits of a number. -/
def ofNat (n : Nat) : Text :=
  digits 10 n

@[simp] theorem trimEnd_nil : trimEnd [] = [] := rfl

theorem trimEnd_cons (c : Char) (r : Text) :
    trimEnd (c :: r) = if trimEnd r = [] ∧ isSpace c then [] else c :: trimEnd r := by
  cases h : trimEnd r <;> simp [trimEnd, h]

@[simp] theorem lines_nil : lines [] = [] := rfl

@[simp] theorem lines_newline (r : Text) : lines ('\n' :: r) = [] :: lines r := rfl

@[simp] theorem unlines_nil : unlines [] = [] := rfl

@[simp] theorem unlines_singleton (l : Text) : unlines [l] = l := rfl

@[simp] theorem unlines_cons_cons (l m : Text) (ls : List Text) :
    unlines (l :: m :: ls) = l ++ '\n' :: unlines (m :: ls) := rfl

end Text

end Oxidize
