import Oxidize.Form.Basic

/-!
# Inline forms

Forms for parts of a line, replaced wherever they stand: calls that print, measure, count or
interpolate (`Inline`), and membership tests (`Membership`).
-/

namespace Oxidize

open Pattern

/-- The parts of a line that are recast wherever they stand. -/
inductive Inline
  /-- A format text that is filled in and printed. -/
  | printFormat
  /-- An interpolated text that is printed. -/
  | printInterpolated
  /-- A value that is printed. -/
  | printValue
  /-- The length of a value. -/
  | length
  /-- A range with a step. -/
  | rangeStep
  /-- A range between two bounds. -/
  | rangeBetween
  /-- A range from zero. -/
  | rangeTo
  /-- An interpolated text. -/
  | interpolated
  deriving DecidableEq

namespace Inline

/-- A call of `range` with the given operands. -/
def range (operands : List (Pattern Field)) : Pattern Field :=
  sequence [edge, text "range(", sequence operands]

/-- The characters that a printed value can begin with. -/
def beginsPrinted (c : Char) : Bool :=
  noneOf "\")" c && !Text.isSpace c

/-- The shape of an inline form. -/
def pattern : Inline → Pattern Field
  | printFormat =>
    sequence [text "println!(\"", field .format (span (noneOf "\"")), text "\".format(",
      field .args (many .greedy inLine), text "))"]
  | printInterpolated =>
    sequence [text "println!(f\"", field .format (span (noneOf "\"")), text "\""]
  | printValue =>
    sequence [text "println!(", field .arg (seq (one beginsPrinted) (span (noneOf ")"))),
      text ")"]
  | length =>
    sequence [edge, text "len(", gap, field .arg (chars isPlace), gap, text ")"]
  | rangeStep => range [argument .lower ",", argument .upper ",", argument .step ")"]
  | rangeBetween => range [argument .lower ",", argument .upper ")"]
  | rangeTo => range [argument .upper ")"]
  | interpolated =>
    sequence [edge, text "f\"", field .body (span (noneOf "\"")), text "\""]

/-- What an inline form becomes. -/
def template : Inline → List Piece
  | printFormat => [.text "println!(\"", .field .format, .text "\", ", .field .args, .text ")"]
  | printInterpolated => [.text "println!(\"", .field .format, .text "\""]
  | printValue => [.text "println!(\"\x7b\x7d\", ", .field .arg, .text ")"]
  | length => [.field .arg, .text ".len()"]
  | rangeStep =>
    [.text "(", .field .lower, .text "..", .field .upper, .text ").step_by(", .field .step,
      .text ")"]
  | rangeBetween => [.field .lower, .text "..", .field .upper]
  | rangeTo => [.text "0..", .field .upper]
  | interpolated => [.text "format!(\"", .field .body, .text "\")"]

/-- The form of a part of a line. -/
def form (i : Inline) : Form :=
  ⟨i.pattern, i.template⟩

/-- The forms of printing calls. -/
def printing : List Inline :=
  [printFormat, printInterpolated, printValue]

/-- The forms of other expressions. Lengths stand before ranges, so that a range can end at a
length. -/
def expressions : List Inline :=
  [length, rangeStep, rangeBetween, rangeTo, interpolated]

/-- All inline forms, in the order in which they are applied. -/
def all : List Inline :=
  printing ++ expressions

theorem mem_all (i : Inline) : i ∈ all := by
  cases i <;> decide

end Inline

/-- The two membership tests. -/
inductive Membership
  /-- That an item is not in a collection. -/
  | absent
  /-- That an item is in a collection. -/
  | present
  deriving DecidableEq

namespace Membership

/-- The shape of a test, with the word between item and collection. -/
def test (keyword : Text) : Pattern Field :=
  sequence [field .item (chars isPlace), space, text keyword, space,
    field .collection (chars isPath)]

/-- The form of a test: the collection is asked whether it holds the item. -/
def form : Membership → Form
  | absent =>
    ⟨test "!in", [.text "!", .field .collection, .text ".contains(&", .field .item, .text ")"]⟩
  | present =>
    ⟨test "in", [.field .collection, .text ".contains(&", .field .item, .text ")"]⟩

/-- Both tests, in the order in which they are applied. -/
def all : List Membership :=
  [absent, present]

theorem mem_all (m : Membership) : m ∈ all := by
  cases m <;> decide

end Membership

end Oxidize
