import Oxidize.Quoting

/-!
# Balance of delimiters

A report on the three pairs of brackets: for each pair that opens more or less often than it closes,
the two counts. Brackets in string literals do not count. A literal stands between double quotes
and ends at the end of its line at the latest.
-/

namespace Oxidize.Layout

/-- How often a delimiter opens and closes. -/
structure Tally where
  opens : Nat
  closes : Nat
  deriving DecidableEq

namespace Tally

instance : Zero Tally := ⟨⟨0, 0⟩⟩

instance : Add Tally := ⟨fun a b => ⟨a.opens + b.opens, a.closes + b.closes⟩⟩

@[simp] theorem opens_zero : (0 : Tally).opens = 0 := rfl

@[simp] theorem closes_zero : (0 : Tally).closes = 0 := rfl

@[simp] theorem opens_add (a b : Tally) : (a + b).opens = a.opens + b.opens := rfl

@[simp] theorem closes_add (a b : Tally) : (a + b).closes = a.closes + b.closes := rfl

end Tally

/-- A pair of delimiters. -/
structure Delimiter where
  opening : Char
  closing : Char
  deriving DecidableEq

/-- Only a double quote opens a literal. -/
def isDoubleQuote (c : Char) : Bool :=
  c = '"'

namespace Delimiter

/-- The three pairs of brackets, in the order of the report. -/
def brackets : List Delimiter := [⟨'{', '}'⟩, ⟨'(', ')'⟩, ⟨'[', ']'⟩]

/-- What one character in code adds to the count. A delimiter that closes with the character that
opens it only ever opens. -/
def tallyChar (d : Delimiter) (c : Char) : Tally :=
  if c = d.opening then ⟨1, 0⟩ else if c = d.closing then ⟨0, 1⟩ else 0

/-- The count in a text, for a scan in state `s`. -/
def tallyFrom (d : Delimiter) (s : Quoting) : Text → Tally
  | [] => 0
  | c :: r =>
    (if s = .code ∧ !isDoubleQuote c then d.tallyChar c else 0) +
      tallyFrom d (s.next isDoubleQuote c) r

/-- The count in a text, without its string literals. -/
def tally (d : Delimiter) (t : Text) : Tally :=
  d.tallyFrom .code t

/-- The count in all lines, each read on its own. -/
def tallyLines (d : Delimiter) : List Text → Tally
  | [] => 0
  | l :: ls => d.tally l + tallyLines d ls

end Delimiter

/-- A pair of delimiters that does not balance. -/
structure Imbalance where
  delimiter : Delimiter
  tally : Tally
  deriving DecidableEq

/-- The report on one imbalance. -/
def Imbalance.message (i : Imbalance) : Text :=
  "unbalanced `" ++ [i.delimiter.opening, i.delimiter.closing] ++ "`: " ++
    Text.ofNat i.tally.opens ++ " opening vs " ++ Text.ofNat i.tally.closes ++ " closing"

/-- The pairs of brackets that do not balance in a text. -/
def imbalances (code : Text) : List Imbalance :=
  (Delimiter.brackets.map fun d => Imbalance.mk d (d.tallyLines code.lines)).filter
    fun i => i.tally.opens ≠ i.tally.closes

/-- Whether every pair of brackets balances. -/
def isBalanced (code : Text) : Bool :=
  (imbalances code).isEmpty

end Oxidize.Layout
