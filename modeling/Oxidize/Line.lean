import Oxidize.Comment
import Oxidize.Form.Ending
import Oxidize.Form.Header
import Oxidize.Form.Inline

/-!
# Lines

`Line.convert` takes one line of a script in which the literal rules have been applied. The trailing
comment is put aside. If the code is a header, the first header that fits recasts it as a whole.
Then the inline forms apply, membership tests only in conditions and bindings. Code without a header
gets a semicolon if it is a whole statement. The comment follows unchanged.
-/

namespace Oxidize.Line

/-- The first header whose shape the code has, and what the code becomes. -/
def header? (code : Text) : Option (Header × Text) :=
  Header.all.findSome? fun h => (h.form.recast? code).map fun t => (h, t)

/-- Whether a line is the head of a loop over a collection. -/
def isLoop (trimmed : Text) : Bool :=
  trimmed.startsWith "for "

/-- Whether a line holds a condition or a binding, where membership tests may stand. -/
def isCondition (trimmed : Text) : Bool :=
  trimmed.startsWith "if " || trimmed.startsWith "\x7d else if " ||
    trimmed.startsWith "while " || trimmed.startsWith "let "

/-- Apply the forms for printing calls, lengths, ranges and interpolated texts. -/
def expressions (t : Text) : Text :=
  Form.recastWith (Inline.all.map Inline.form) t

/-- Apply the membership forms. -/
def memberships (t : Text) : Text :=
  Form.recastWith (Membership.all.map Membership.form) t

/-- Apply all inline forms that are due. -/
def inline (t : Text) : Text :=
  let u := expressions t
  if isCondition u.trimStart && !isLoop u.trimStart then memberships u else u

/-- The statement with its semicolon, if it gets one. -/
def ended? (t : Text) : Option Text :=
  Ending.all.findSome? fun e => e.form.recast? t

/-- Convert the code of a line. -/
def convertCode (code : Text) : Text :=
  match header? code with
  | some (_, t) => inline t
  | none => (ended? (inline code)).getD (inline code)

/-- Convert a line. A line without code stays as it is. -/
def convert (line : Text) : Text :=
  let (code, comment) := Comment.split line
  if code.isBlank then line else convertCode code ++ comment

/-- Convert every line of a text. -/
def convertAll (t : Text) : List Text :=
  t.lines.map convert

@[simp] theorem length_convertAll (t : Text) : (convertAll t).length = t.lines.length := by
  simp [convertAll]

end Oxidize.Line
