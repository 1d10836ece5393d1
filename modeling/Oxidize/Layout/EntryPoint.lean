import Oxidize.Layout.Depth
import Oxidize.Settings.Basic

/-!
# Entry points

Code without an entry point can be wrapped in one: the header, the code one level deeper, and a
closing brace. An entry point is recognised by its signature, wherever that stands in the code.
-/

namespace Oxidize.Layout

/-- Whether the code has the entry point of the settings. -/
def hasEntryPoint (s : Settings) (code : Text) : Bool :=
  code.includes s.entrySignature

/-- A line one level deeper. A blank line becomes empty. -/
def deepen (s : Settings) (l : Text) : Text :=
  if l.isBlank then [] else s.indent ++ l

/-- The code in an entry point. -/
def wrap (s : Settings) (code : Text) : Text :=
  Text.unlines (s.entryHeader :: code.lines.map (deepen s) ++ [['}']])

/-- The code in an entry point, unless it has one or the settings ask for none. -/
def ensureEntryPoint (s : Settings) (code : Text) : Text :=
  if !s.wrap || hasEntryPoint s code then code else wrap s code

/-- The final text of converted lines: new indentation and, if needed, an entry point. -/
def finish (s : Settings) (ls : List Text) : Text :=
  ensureEntryPoint s (Text.unlines (reindentLines s.width ls))

end Oxidize.Layout
