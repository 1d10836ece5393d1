import Oxidize.Converter
import Oxidize.Text.Quoted

/-!
# Sessions

A session is a sequence of steps on one converter: some build it anew or change a part of it, the
others use it. `run` gives for each step its answer, what the step did, and the converter after it.

A code generator can answer one prompt differently from step to step. So in a session a generator is
given as what it is in each step, counted from 0, and so is the converter that holds it.
-/

namespace Oxidize

/-- A generator that is the same in every step. -/
instance : Coe Generator (Nat → Generator) :=
  ⟨fun g _ => g⟩

/-- A step of a session. -/
inductive Step
  /-- Start with the standard converter. -/
  | fresh
  /-- Start with the converter for the given settings. -/
  | configure (s : Settings)
  /-- Replace the rule table. -/
  | setRules (rules : RuleTable)
  /-- Set the code generator, given as what it is in each step of the session. -/
  | setGenerator (g : Nat → Generator)
  /-- Convert a script. -/
  | convert (source : Text)
  /-- Convert a script and answer the code alone. -/
  | codeOf (source : Text)
  /-- Convert a script by rules. -/
  | tryConvert (source : Text)
  /-- Convert a script by literal rules alone. -/
  | fallback (source : Text)
  /-- Apply the literal rules to a text. -/
  | applyRules (t : Text)
  /-- Describe the converter. -/
  | describe

/-- What a step answers. -/
inductive Answer
  | nothing
  | text (t : Text)
  | failure (f : Failure)
  | conversion (c : Conversion)
  deriving DecidableEq

namespace Converter

/-- A truth value in words. -/
def flag (b : Bool) : Text :=
  if b then "true" else "false"

/-- A rule in words. -/
def describeRule (r : Rule) : Text :=
  "Rule \x7b pattern: " ++ r.pattern.quoted ++ ", replacement: " ++ r.replacement.quoted ++ " \x7d"

/-- Settings in words. -/
def describeSettings (s : Settings) : Text :=
  "TranspileConfig \x7b indent_width: " ++ Text.ofNat s.indentWidth ++ ", entry_point: " ++
    s.entryPoint.quoted ++ ", wrap_entry_point: " ++ flag s.wrap ++ ", extra_rules: [" ++
    ((s.extraRules.map describeRule).intersperse (", " : Text)).flatten ++ "] \x7d"

/-- A converter in words, on one line. -/
def describe (c : Converter) : Text :=
  "Transpiler \x7b config: " ++ describeSettings c.settings ++ ", rules: " ++
    Text.ofNat c.rules.length ++ ", generator: " ++ flag c.generator?.isSome ++ " \x7d"

end Converter

namespace Step

/-- The converter after a step, given as what it is in each step of the session. -/
def next (c : Nat → Converter) : Step → Nat → Converter
  | fresh => fun _ => .standard
  | configure s => fun _ => .ofSettings s
  | setRules rules => fun n => (c n).withRules rules
  | setGenerator g => fun n => (c n).withGenerator (g n)
  | convert _ | codeOf _ | tryConvert _ | fallback _ | applyRules _ | describe => c

/-- The answer of a step on a converter. -/
def answer (c : Converter) : Step → Stage Answer
  | fresh | configure _ | setRules _ | setGenerator _ => pure .nothing
  | convert source => do
    let r ← c.convert source
    pure (.conversion r)
  | codeOf source => do
    let t ← c.codeOf source
    pure (.text t)
  | tryConvert source => do
    match ← c.tryConvert source with
    | .ok t => pure (.text t)
    | .error f => pure (.failure f)
  | fallback source => do
    let t ← c.fallback source
    pure (.text t)
  | applyRules t => pure (.text (c.rules.apply t))
  | describe => pure (.text c.describe)

end Step

namespace Session

/-- What is seen of a step: its outcome and the converter after it. -/
structure Entry where
  outcome : Outcome Answer
  converter : Converter

/-- The prompts that the code generator was asked in a step. -/
def Entry.prompts (e : Entry) : List Text :=
  e.outcome.acts.filterMap Act.prompt?

/-- Run the steps of a session from step `n` on. -/
def runFrom (w : Watch) (n : Nat) (c : Nat → Converter) : List Step → List Entry
  | [] => []
  | s :: steps => ⟨s.answer (c n) w, s.next c (n + 1)⟩ :: runFrom w (n + 1) (s.next c) steps

/-- Run the steps of a session that starts with a converter. -/
def run (w : Watch) (c : Converter) (steps : List Step) : List Entry :=
  runFrom w 0 (fun _ => c) steps

end Session

end Oxidize
