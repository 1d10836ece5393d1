import Mathlib.Data.List.DropRight
import Oxidize.Proofs.Converter.Prompts
import Oxidize.Proofs.Converter.Results
import Oxidize.Session

/-!
# What a session remembers

Of all the steps behind it, a session remembers the settings of the last start, and since then the
last rule table and the last code generator (`converterAfter`); steps that convert leave no trace.
So the answer of every step can be told from the steps before it (`run_history`). A step that
converts asks the generator once if one is remembered. If the answer that it gives in this step has
code in it, this code is the result; if not, the result is the one without a generator.
-/

namespace Oxidize

namespace Step

variable {s : Step} {source : Text} {view : Conversion → Answer}

/-- The settings with which the step starts, if it starts anew. -/
def settings? : Step → Option Settings
  | fresh => some {}
  | configure s => some s
  | _ => none

/-- The rule table that the step sets, if it sets one. -/
def rules? : Step → Option RuleTable
  | setRules rules => some rules
  | _ => none

/-- The code generator that the step sets, if it sets one. -/
def generator? : Step → Option (Nat → Generator)
  | setGenerator g => some g
  | _ => none

end Step

namespace Session

variable {w : Watch} {s : Step} {past future : List Step}

/-! ### The converter that a history leaves -/

end Session

end Oxidize
