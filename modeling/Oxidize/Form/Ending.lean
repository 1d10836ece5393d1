import Oxidize.Form.Basic

/-!
# Endings

A line that is no header but a whole statement gets a semicolon: a return, a call, or an assignment
to a place that is more than a name.
-/

namespace Oxidize

open Pattern

/-- The statements that get a semicolon. -/
inductive Ending
  /-- A return. -/
  | returned
  /-- A call of a function or a macro. -/
  | call
  /-- An assignment to a place, possibly with an operator. -/
  | placement
  deriving DecidableEq

namespace Ending

/-- The operators that can stand before the equals sign of an assignment. -/
def isOperator (c : Char) : Bool :=
  oneOf "-+*/%|&^" c

/-- The characters of the path to a function. -/
def isCallee (c : Char) : Bool :=
  Text.isWord c || oneOf ".:" c

/-- The shape of a statement. -/
def statement : Ending → Pattern Field
  | returned => sequence [text "return", edge, many .lazy (noneOf ";")]
  | call =>
    sequence [chars isCallee, optional (text "!"), text "(",
      many .greedy (noneOf ";"), text ")"]
  | placement =>
    sequence [chars isPlace, gap, optional (one isOperator), text "=", gap,
      one beginsValue, many .lazy (noneOf ";")]

/-- The form of a statement: its line with a semicolon in place of the white space at its end. -/
def form (e : Ending) : Form :=
  ⟨sequence [indent, field .statement e.statement, gap, stop],
    [.field .indent, .field .statement, .text ";"]⟩

/-- All endings, in the order in which they are tried. -/
def all : List Ending :=
  [returned, call, placement]

theorem mem_all (e : Ending) : e ∈ all := by
  cases e <;> decide

end Ending

end Oxidize
