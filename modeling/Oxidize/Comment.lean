import Oxidize.Quoting

/-!
# Trailing comments

A line is code followed by an optional comment. The comment begins at the first `//` that stands
outside string literals and at the start of the line or behind white space; the white space before
it belongs to it. `split` is that cut, and its two halves joined are the line.
-/

namespace Oxidize.Comment

/-- Both kinds of quotes open a string literal. -/
def isQuote (c : Char) : Bool :=
  c = '"' || c = '\''

/-- Whether a comment begins here, behind the character `before` or at the start of the line. -/
def beginsAt (before : Option Char) : Text → Bool
  | '/' :: '/' :: _ => before.all Text.isAsciiSpace
  | _ => false

/-- Cut a text before the first comment mark, for a scan in state `s` behind the character
`before`. -/
def cut (s : Quoting) (before : Option Char) : Text → Option (Text × Text)
  | [] => none
  | c :: r =>
    if s = .code ∧ beginsAt before (c :: r) then some ([], c :: r)
    else (cut (s.next isQuote c) (some c) r).map fun (code, comment) => (c :: code, comment)

/-- The code of a line and its comment. -/
def split (line : Text) : Text × Text :=
  match cut .code none line with
  | none => (line, [])
  | some (code, comment) =>
    (code.trimEnd, code.drop code.trimEnd.length ++ comment)

@[simp] theorem cut_nil (s : Quoting) (before : Option Char) : cut s before [] = none := rfl

theorem cut_cons (s : Quoting) (before : Option Char) (c : Char) (r : Text) :
    cut s before (c :: r) =
      if s = .code ∧ beginsAt before (c :: r) then some ([], c :: r)
      else (cut (s.next isQuote c) (some c) r).map fun (code, comment) => (c :: code, comment) :=
  rfl

/-- The two sides of a cut joined are the text. -/
theorem append_of_cut {s : Quoting} {before : Option Char} {t code comment : Text}
    (h : cut s before t = some (code, comment)) : code ++ comment = t := by
  induction t generalizing s before code with
  | nil => simp at h
  | cons c r ih =>
    rw [cut_cons] at h
    split at h
    · simp_all
    · simp only [Option.map_eq_some_iff, Prod.exists, Prod.mk.injEq] at h
      obtain ⟨code', comment', h', rfl, rfl⟩ := h
      simpa using ih h'

end Oxidize.Comment
