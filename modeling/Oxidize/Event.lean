import Oxidize.Failure
import Oxidize.Layout.Balance

/-!
# Events

The events that a conversion reports while it runs, each with a level, the place in the program that
it comes from, a message and named values. Runs of the command line report three more.
-/

namespace Oxidize

/-- How much an event matters. -/
inductive Level
  | debug
  | info
  | warn
  deriving DecidableEq

/-- The name of a level. -/
def Level.name : Level → Text
  | debug => "DEBUG"
  | info => "INFO"
  | warn => "WARN"

/-- The events that are reported. -/
inductive Event
  /-- The forms are ready to use. -/
  | formsReady (headers inline memberships endings : Nat)
  /-- All lines have been converted. -/
  | linesConverted (count : Nat)
  /-- The code ends inside of blocks. -/
  | blocksOpen (depth : Nat)
  /-- The code generator is of no use, the rules have to do. -/
  | generatorFailed (f : Failure)
  /-- The conversion by lines failed. -/
  | conversionFailed (f : Failure)
  /-- The conversion by rules alone failed. -/
  | fallbackFailed (f : Failure)
  /-- A pair of delimiters does not balance. -/
  | unbalanced (i : Layout.Imbalance)
  /-- The conversion is complete. -/
  | converted (bytes : Nat) (success : Bool)
  deriving DecidableEq

namespace Event

/-- The level of an event. -/
def level : Event → Level
  | formsReady .. | linesConverted _ | blocksOpen _ => .debug
  | converted .. => .info
  | generatorFailed _ | conversionFailed _ | fallbackFailed _ | unbalanced _ => .warn

/-- The place in the program that an event comes from. -/
def target : Event → Text
  | formsReady .. => "py2rs::translate"
  | blocksOpen _ => "py2rs::postprocess_output"
  | linesConverted _ | generatorFailed _ | conversionFailed _ | fallbackFailed _ =>
    "py2rs::transpile_main"
  | unbalanced _ | converted .. => "py2rs"

/-- The message of an event. -/
def message : Event → Text
  | formsReady .. => "compiled structural patterns"
  | linesConverted _ => "structural rewrite done"
  | blocksOpen _ => "unclosed blocks at end of input"
  | generatorFailed _ => "code generator failed, using rule-based conversion"
  | conversionFailed _ => "structural rewrite failed, using fallback"
  | fallbackFailed _ => "fallback conversion failed"
  | unbalanced i => i.message
  | converted .. => "transpiled"

/-- The named values of an event. -/
def values : Event → List (Text × Text)
  | formsReady headers inline memberships endings =>
    [("headers", Text.ofNat headers), ("expressions", Text.ofNat inline),
      ("membership", Text.ofNat memberships), ("terminators", Text.ofNat endings)]
  | linesConverted count => [("lines", Text.ofNat count)]
  | blocksOpen depth => [("open", Text.ofNat depth)]
  | generatorFailed f | conversionFailed f | fallbackFailed f => [("error", f.message)]
  | unbalanced _ => []
  | converted bytes success =>
    [("bytes", Text.ofNat bytes), ("success", if success then "true" else "false")]

/-- A named value as the log shows it. -/
def valueText (v : Text × Text) : Text :=
  " " ++ v.1 ++ "=" ++ v.2

/-- The line that logs an event. -/
def logLine (e : Event) : Text :=
  e.level.name ++ " " ++ e.target ++ ": " ++ e.message ++ e.values.flatMap valueText

end Event

end Oxidize
