import Oxidize.Pattern.Search

/-!
# Forms

A form says what code of a certain shape becomes: a pattern that names the parts of the code and a
template that puts these parts together anew. `recast?` makes one text of the first match and drops
what stands around it; `recastAll` replaces every match where it stands.

The patterns that several forms share stand here too.
-/

namespace Oxidize

/-- The parts of the code that the forms name. -/
inductive Field
  | indent
  | name
  | params
  | result
  | value
  | target
  | lower
  | upper
  | step
  | items
  | condition
  | format
  | args
  | arg
  | body
  | item
  | collection
  | statement
  deriving DecidableEq

/-- A piece of a template: a fixed text or the text of a named part. -/
inductive Piece
  | text (t : Text)
  | field (f : Field)
  deriving DecidableEq

namespace Piece

/-- The text that a piece stands for in a match. -/
def expand (m : Match Field) : Piece → Text
  | text t => t
  | field f => m.get f

end Piece

/-- A pattern and what its matches become. -/
structure Form where
  pattern : Pattern Field
  template : List Piece

namespace Form

/-- What a match becomes. -/
def expand (f : Form) (m : Match Field) : Text :=
  f.template.flatMap (Piece.expand m)

/-- What the first match becomes, without the text around it. -/
def recast? (f : Form) (t : Text) : Option Text :=
  (f.pattern.find? t).map f.expand

/-- The text with every match replaced. -/
def recastAll (f : Form) (t : Text) : Text :=
  f.pattern.replaceAll f.expand t

/-- The text after all forms, one after the other. -/
def recastWith (fs : List Form) (t : Text) : Text :=
  fs.foldl (fun u f => f.recastAll u) t

@[simp] theorem recastWith_nil (t : Text) : recastWith [] t = t := rfl

@[simp] theorem recastWith_cons (f : Form) (fs : List Form) (t : Text) :
    recastWith (f :: fs) t = recastWith fs (f.recastAll t) := rfl

end Form

namespace Pattern

/-- The characters of a text, as a set. -/
def oneOf (cs : Text) (c : Char) : Bool :=
  cs.contains c

/-- The characters that are not in a text, as a set. -/
def noneOf (cs : Text) (c : Char) : Bool :=
  !cs.contains c

/-- Every character but the line feed. -/
def inLine (c : Char) : Bool :=
  c != '\n'

/-- White space, or nothing. -/
def gap : Pattern Field :=
  span Text.isSpace

/-- White space. -/
def space : Pattern Field :=
  chars Text.isSpace

/-- A word. -/
def word : Pattern Field :=
  chars Text.isWord

/-- The white space that a line begins with. -/
def indent : Pattern Field :=
  sequence [start, field .indent gap]

/-- The colon at the end of a line. -/
def colonEnd : Pattern Field :=
  sequence [gap, text ":", gap, stop]

/-- An operand of a range: no comma and no parenthesis, except in parentheses that hold no further
ones. It ends as early as it can. -/
def operand : Pattern Field :=
  plus .lazy (alt (one (noneOf ",()"))
    (sequence [text "(", span (noneOf "()"), text ")"]))

/-- An operand under a name and the mark that ends it. White space around the operand does not
belong to it, unless there is nothing else. All ways to match this end at the same mark, so that
there is no need to go back on the first one. -/
def argument (label : Field) (mark : Text) : Pattern Field :=
  atomic (sequence [many .greedy Text.isSpace, field label operand, gap, text mark])

/-- The characters of a place that can be assigned to: words, dots, brackets and quotes. -/
def isPlace (c : Char) : Bool :=
  Text.isWord c || oneOf ".[]\"'" c

/-- The characters of a path to a collection: words, dots and brackets. -/
def isPath (c : Char) : Bool :=
  Text.isWord c || oneOf ".[]" c

/-- The characters that may follow the equals sign of an assignment: neither white space nor a
second equals sign. -/
def beginsValue (c : Char) : Bool :=
  c != '=' && !Text.isSpace c

end Pattern

end Oxidize
