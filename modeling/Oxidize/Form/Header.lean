import Oxidize.Form.Basic

/-!
# Headers

A header is a line of code that is recast as a whole: the head of a function, a record or a block,
which ends in a colon and gets a brace instead, or an assignment to a name, which becomes a binding.
`Header.all` lists the headers in the order in which they are tried.
-/

namespace Oxidize

open Pattern

/-- The shapes of lines that are recast as a whole. -/
inductive Header
  /-- The head of a function that names its result. -/
  | functionTo
  /-- The head of a function. -/
  | function
  /-- The head of a record. -/
  | record
  /-- An assignment whose value goes on in the lines below. -/
  | openBinding
  /-- An assignment to a name. -/
  | binding
  /-- A loop over a range with a step. -/
  | rangeStep
  /-- A loop over a range between two bounds. -/
  | rangeBetween
  /-- A loop over a range from zero. -/
  | rangeTo
  /-- A loop over a collection. -/
  | forEach
  /-- A loop with a condition. -/
  | whileLoop
  /-- A further branch with a condition. -/
  | elseIf
  /-- A branch with a condition. -/
  | ifBranch
  /-- The branch for all other cases. -/
  | otherwise
  deriving DecidableEq

/-- What a header is the head of. -/
inductive Construct
  | function
  | record
  | binding
  | block
  deriving DecidableEq

namespace Header

/-- The head of a loop over a range with the given operands. -/
def overRange (operands : List (Pattern Field)) : Pattern Field :=
  sequence [indent, text "for", space, field .target word, space, text "in", space, text "range(",
    sequence operands, colonEnd]

/-- A keyword and then a condition. -/
def conditional (keyword : Pattern Field) : Pattern Field :=
  sequence [indent, keyword, oneOrMore .greedy Text.isSpace,
    field .condition (oneOrMore .lazy inLine), colonEnd]

/-- The head of a function up to the parenthesis that closes its parameters. -/
def functionHead : Pattern Field :=
  sequence [indent, alt (text "def") (text "fn"), space, field .name word, gap, text "(",
    field .params (span (noneOf ")")), text ")"]

/-- An assignment to a name, with a pattern for its value. -/
def assignment (value : Pattern Field) : Pattern Field :=
  sequence [indent, field .name word, gap, text "=", gap, field .value value, gap, stop]

/-- The shape of a header. -/
def pattern : Header → Pattern Field
  | functionTo =>
    sequence [functionHead, gap, text "->", many .greedy Text.isSpace,
      field .result (oneOrMore .lazy (noneOf ":")), colonEnd]
  | function => sequence [functionHead, colonEnd]
  | record =>
    sequence [indent, text "struct", space, field .name word, gap,
      optional (sequence [text "(", span (noneOf ")"), text ")"]), colonEnd]
  | openBinding =>
    assignment (seq (optional (seq (one beginsValue) (many .greedy inLine)))
      (one (oneOf ['[', '(', '{'])))
  | binding => assignment (seq (one beginsValue) (many .lazy inLine))
  | rangeStep => overRange [argument .lower ",", argument .upper ",", argument .step ")"]
  | rangeBetween => overRange [argument .lower ",", argument .upper ")"]
  | rangeTo => overRange [argument .upper ")"]
  | forEach =>
    sequence [indent, text "for", oneOrMore .greedy Text.isSpace,
      field .target (oneOrMore .lazy (noneOf ":")), space, text "in",
      oneOrMore .greedy Text.isSpace, field .items (oneOrMore .lazy inLine), colonEnd]
  | whileLoop => conditional (text "while")
  | elseIf => conditional (sequence [text "\x7d", gap, text "else", space, text "if"])
  | ifBranch => conditional (text "if")
  | otherwise => sequence [indent, text "else", colonEnd]

/-- What a header becomes, behind its indent. -/
def body : Header → List Piece
  | functionTo =>
    [.text "fn ", .field .name, .text "(", .field .params, .text ") -> ", .field .result,
      .text " \x7b"]
  | function => [.text "fn ", .field .name, .text "(", .field .params, .text ") \x7b"]
  | record => [.text "struct ", .field .name, .text " \x7b"]
  | openBinding => [.text "let ", .field .name, .text " = ", .field .value]
  | binding => [.text "let ", .field .name, .text " = ", .field .value, .text ";"]
  | rangeStep =>
    [.text "for ", .field .target, .text " in (", .field .lower, .text "..", .field .upper,
      .text ").step_by(", .field .step, .text ") \x7b"]
  | rangeBetween =>
    [.text "for ", .field .target, .text " in ", .field .lower, .text "..", .field .upper,
      .text " \x7b"]
  | rangeTo => [.text "for ", .field .target, .text " in 0..", .field .upper, .text " \x7b"]
  | forEach => [.text "for ", .field .target, .text " in ", .field .items, .text " \x7b"]
  | whileLoop => [.text "while ", .field .condition, .text " \x7b"]
  | elseIf => [.text "\x7d else if ", .field .condition, .text " \x7b"]
  | ifBranch => [.text "if ", .field .condition, .text " \x7b"]
  | otherwise => [.text "\x7d else \x7b"]

/-- The form of a header. The indent is kept. -/
def form (h : Header) : Form :=
  ⟨h.pattern, .field .indent :: h.body⟩

/-- What a header is the head of. -/
def construct : Header → Construct
  | functionTo | function => .function
  | record => .record
  | openBinding | binding => .binding
  | rangeStep | rangeBetween | rangeTo | forEach | whileLoop | elseIf | ifBranch | otherwise =>
    .block

/-- All headers, in the order in which they are tried. Assignments stand before blocks, ranges
before other loops. -/
def all : List Header :=
  [functionTo, function, record, openBinding, binding, rangeStep, rangeBetween, rangeTo, forEach,
    whileLoop, elseIf, ifBranch, otherwise]

/-- The headers of one construct, in the order in which they are tried. -/
def ofConstruct (k : Construct) : List Header :=
  all.filter fun h => h.construct = k

theorem mem_all (h : Header) : h ∈ all := by
  cases h <;> decide

end Header

end Oxidize
