import Oxidize.Generated.Prompt
import Oxidize.Pattern.Search

/-!
# Code fences

A generated text may say more than code. Its code is what stands in the first code block: a closed
block if there is one, otherwise what follows an opening fence, otherwise the whole text. The
language may be named behind the opening fence, in letters of any case.
-/

namespace Oxidize.Generated

open Pattern

/-- Whether a character is the lower-case letter `d` in some case. The long s is an s. -/
def sameLetter (d c : Char) : Bool :=
  c = d || c = d.toUpper || (d = 's' && c = '\u017f')

/-- A word of lower-case letters, written in any case. -/
def anyCase (t : Text) : Pattern Unit :=
  sequence (t.map fun d => one (sameLetter d))

/-- A code block with a given opening behind its first fence and a given end. Its code ends as early
as it can. -/
def block (opening ending : Pattern Unit) : Pattern Unit :=
  sequence [text fence, opening, field () (many .lazy fun _ => true), ending]

/-- What may stand behind the fence that opens a block: the language and a line end, the language,
or a line end. -/
def openings : List (Pattern Unit) :=
  [seq (anyCase "rust") (text "\n"), anyCase "rust", text "\n"]

/-- The code blocks, in the order in which they are looked for: closed ones before those that go on
to the end of the text. -/
def blocks : List (Pattern Unit) :=
  openings.map (block · (text fence)) ++ openings.map (block · stop)

/-- The code in a generated text, trimmed. -/
def extract (t : Text) : Text :=
  match blocks.findSome? fun b => b.find? t with
  | some m => (m.get ()).trim
  | none => t.trim

end Oxidize.Generated
