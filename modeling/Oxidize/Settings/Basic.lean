import Oxidize.Rule

/-!
# Settings

What a user can choose: the width of one level of indentation, the name of the entry point, whether
code without an entry point is wrapped in one, and further literal rules. A width over the maximum
is refused by `widthFault?`; where it gets through nevertheless, `width` cuts it down.
-/

namespace Oxidize

/-- The choices of a user. -/
structure Settings where
  indentWidth : Nat := 4
  entryPoint : Text := "main"
  wrap : Bool := true
  extraRules : RuleTable := []
  deriving DecidableEq

namespace Settings

/-- The greatest number of spaces for one level. -/
def maxWidth : Nat := 16

/-- The number of spaces for one level, at most the maximum. -/
def width (s : Settings) : Nat :=
  min s.indentWidth maxWidth

/-- The spaces for one level. -/
def indent (s : Settings) : Text :=
  Text.spaces s.width

/-- The text by which an entry point is recognised. -/
def entrySignature (s : Settings) : Text :=
  "fn " ++ s.entryPoint ++ "()"

/-- The line that opens an entry point. -/
def entryHeader (s : Settings) : Text :=
  s.entrySignature ++ " \x7b"

/-- The standard rules and then those of the user. -/
def ruleTable (s : Settings) : RuleTable :=
  RuleTable.standard ++ s.extraRules

/-- What is wrong with the width, if it is over the maximum. -/
def widthFault? (s : Settings) : Option Text :=
  if s.indentWidth ≤ maxWidth then none
  else some ("indent_width " ++ Text.ofNat s.indentWidth ++ " exceeds the maximum of " ++
    Text.ofNat maxWidth)

end Settings

end Oxidize
