import Oxidize.Text.Basic

/-!
# String literals

A scan through a line has to know which characters stand inside a string literal. `Quoting` is the
state of such a scan and `next` its step; which characters open a literal is a parameter.
-/

namespace Oxidize

/-- Where a scan stands: in code, in a literal that the quote `q` ends, or behind a backslash in
such a literal. -/
inductive Quoting
  | code
  | literal (q : Char)
  | escape (q : Char)
  deriving DecidableEq

namespace Quoting

/-- One step of a scan. The character behind a backslash stands for itself; outside literals a
backslash is a character like any other. -/
def next (opens : Char → Bool) : Quoting → Char → Quoting
  | code, c => if opens c then literal c else code
  | literal q, c => if c = '\\' then escape q else if c = q then code else literal q
  | escape q, _ => literal q

/-- The state behind a text. -/
def after (opens : Char → Bool) (s : Quoting) (t : Text) : Quoting :=
  t.foldl (next opens) s

@[simp] theorem after_nil (opens : Char → Bool) (s : Quoting) : s.after opens [] = s := rfl

@[simp] theorem after_cons (opens : Char → Bool) (s : Quoting) (c : Char) (t : Text) :
    s.after opens (c :: t) = (s.next opens c).after opens t := rfl

@[simp] theorem after_append (opens : Char → Bool) (s : Quoting) (t u : Text) :
    s.after opens (t ++ u) = (s.after opens t).after opens u := by
  simp [after]

end Quoting

end Oxidize
