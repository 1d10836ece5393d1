import Oxidize.Comment

/-!
# Depth

The depth of a line is the number of blocks that are open around it. A line that begins with a
closing brace closes a block before it is placed, a line whose code ends with an opening brace opens
one afterwards. A closing brace at depth zero closes nothing. Blank lines stand at depth zero and
change nothing.

`depthsAlong` follows openings and closings alone. `place` gives each line its depth, `finalDepth`
is the depth behind the last line, and `reindent` writes the lines with the spaces that their depths
ask for.
-/

namespace Oxidize.Layout

/-- The depth inside a block that opens. -/
def openBlock (depth : Nat) : Nat :=
  depth + 1

/-- The depth outside a block that closes, at least zero. -/
def closeBlock (depth : Nat) : Nat :=
  depth - 1

/-- A change of depth. -/
inductive Turn
  | opening
  | closing
  deriving DecidableEq

/-- The depth behind a turn. -/
def Turn.next (depth : Nat) : Turn → Nat
  | opening => openBlock depth
  | closing => closeBlock depth

/-- The depths behind each of some turns. -/
def depthsAlong (depth : Nat) : List Turn → List Nat
  | [] => []
  | t :: ts => t.next depth :: depthsAlong (t.next depth) ts

/-- Whether a trimmed line opens a block; its comment does not matter. -/
def opens (trimmed : Text) : Bool :=
  (Comment.split trimmed).1.getLast? = some '{'

/-- Whether a trimmed line closes a block. -/
def closes (trimmed : Text) : Bool :=
  trimmed.startsWith "\x7d"

/-- The depth at which a trimmed line stands. -/
def depthAt (depth : Nat) (trimmed : Text) : Nat :=
  if closes trimmed then closeBlock depth else depth

/-- The depth behind a trimmed line. -/
def depthAfter (depth : Nat) (trimmed : Text) : Nat :=
  if opens trimmed then openBlock (depthAt depth trimmed) else depthAt depth trimmed

/-- A trimmed line and the depth at which it stands. -/
structure Placed where
  depth : Nat
  text : Text
  deriving DecidableEq

/-- The line with its indentation. -/
def Placed.render (width : Nat) (p : Placed) : Text :=
  Text.spaces (p.depth * width) ++ p.text

/-- Give each line its depth. -/
def place (depth : Nat) : List Text → List Placed
  | [] => []
  | l :: ls =>
    if l.isBlank then ⟨0, []⟩ :: place depth ls
    else ⟨depthAt depth l.trim, l.trim⟩ :: place (depthAfter depth l.trim) ls

/-- The depth behind the last line. -/
def finalDepth (depth : Nat) : List Text → Nat
  | [] => depth
  | l :: ls =>
    if l.isBlank then finalDepth depth ls else finalDepth (depthAfter depth l.trim) ls

/-- The lines with new indentation, for any width: the limits of memory are not modelled. -/
def reindentLines (width : Nat) (ls : List Text) : List Text :=
  (place 0 ls).map (Placed.render width)

/-- The depths of the lines. -/
def depths (ls : List Text) : List Nat :=
  (place 0 ls).map Placed.depth

/-- The text with new indentation. -/
def reindent (width : Nat) (t : Text) : Text :=
  Text.unlines (reindentLines width t.lines)

@[simp] theorem place_nil (depth : Nat) : place depth [] = [] := rfl

@[simp] theorem finalDepth_nil (depth : Nat) : finalDepth depth [] = depth := rfl

@[simp] theorem length_place (depth : Nat) (ls : List Text) :
    (place depth ls).length = ls.length := by
  induction ls generalizing depth with
  | nil => rfl
  | cons l ls ih =>
    rw [place]
    split <;> simp [ih]

end Oxidize.Layout
