import Oxidize.Form.Basic
import Oxidize.Layout.EntryPoint

/-!
# Tidying generated code

Generated code loses its indentation and its blank lines, printing calls that fill a text into an
empty format are mended, and it is wrapped in an entry point and indented anew. Code that has an
entry point or begins with a function is not wrapped.
-/

namespace Oxidize.Generated

open Pattern

/-- The lines of the code that are not blank, from their first character on. -/
def flatten (code : Text) : Text :=
  Text.unlines ((code.lines.map Text.trimStart).filter fun l => !l.isEmpty)

/-- The beginning of a printing call that fills a text into an empty format. -/
def printing : Pattern Field :=
  seq (text "println!(\"\x7b\x7d\",\"") (field .format (chars (noneOf "\"")))

/-- Such a call that prints the text alone. -/
def printText : Form :=
  ⟨sequence [printing, text "\");"], [.text "println!(\"", .field .format, .text "\");"]⟩

/-- Such a call whose text is a format for the values behind it. -/
def printValues : Form :=
  ⟨sequence [printing, text "\", ", field .args (chars (noneOf ")")), text ");"],
    [.text "println!(\"", .field .format, .text "\", ", .field .args, .text ");"]⟩

/-- Mend the printing calls. -/
def mendPrinting (code : Text) : Text :=
  Form.recastWith [printText, printValues] code

/-- Whether flat code has to be wrapped in an entry point. -/
def needsWrap (s : Settings) (code : Text) : Bool :=
  s.wrap && !Layout.hasEntryPoint s code && !code.startsWith "fn "

/-- Generated code in its final layout. -/
def tidy (s : Settings) (code : Text) : Text :=
  let flat := mendPrinting (flatten code)
  Layout.reindent s.width (if needsWrap s flat then Layout.wrap s flat else flat)

end Oxidize.Generated
