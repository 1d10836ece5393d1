import Oxidize.Generated.Fence
import Oxidize.Generated.Tidy
import Oxidize.Line
import Oxidize.Stage

/-!
# Conversion

A converter holds settings, a rule table and possibly a code generator. `convert` asks the generator
first, if there is one. Without usable code from it, the rules apply: `tryConvert` takes the text
through the literal rules, the conversion of its lines and the final layout. If a stage of that
breaks off, `fallback` does without the conversion of lines, and the failure is told in comment
lines on top; if the fallback breaks off too, only the comment lines remain. So `convert` always has
a result.
-/

namespace Oxidize

/-- What a code generator answers. -/
inductive Reply
  /-- It gives a text. -/
  | text (t : Text)
  /-- It refuses. -/
  | failed (f : Failure)
  /-- It breaks off. -/
  | brokenOff (p : Payload)
  deriving DecidableEq

/-- A code generator answers a prompt. This is how it is in one conversion: in a session it can
change from step to step. -/
abbrev Generator := Text → Reply

/-- Ask a generator. -/
def Generator.ask (g : Generator) (prompt : Text) : Stage (Except Failure Text) := fun _ =>
  ⟨[.asked prompt], match g prompt with
    | .text t => .ok (.ok t)
    | .failed f => .ok (.error f)
    | .brokenOff p => .error p⟩

/-- The result of a conversion: the code, and the failure that it had to do without, if any. -/
structure Conversion where
  code : Text
  failure? : Option Failure
  deriving DecidableEq

/-- Whether the conversion went without failure. -/
def Conversion.success (c : Conversion) : Bool :=
  c.failure?.isNone

/-- What a conversion works with. -/
structure Converter where
  settings : Settings
  rules : RuleTable
  generator? : Option Generator

namespace Converter

/-- The converter for given settings. -/
def ofSettings (s : Settings) : Converter :=
  ⟨s, s.ruleTable, none⟩

/-- The converter for the standard settings. -/
def standard : Converter :=
  ofSettings {}

/-- The converter with another rule table. -/
def withRules (c : Converter) (rules : RuleTable) : Converter :=
  { c with rules }

/-- The converter with a code generator. -/
def withGenerator (c : Converter) (g : Generator) : Converter :=
  { c with generator? := some g }

/-- Give converted lines their final layout. Blocks that are open at the end are reported. -/
def layOut (s : Settings) (ls : List Text) : Stage Text := do
  let depth := Layout.finalDepth 0 ls
  if depth ≠ 0 then
    Stage.report (.blocksOpen depth)
  pure (Layout.finish s ls)

/-- The conversion by rules, whose stages may break off. -/
def byLines (c : Converter) (source : Text) : Stage Text := do
  let ls := Line.convertAll (c.rules.apply source)
  Stage.report (.linesConverted ls.length)
  layOut c.settings ls

/-- The conversion by rules, or the failure of the stage that broke off. -/
def tryConvert (c : Converter) (source : Text) : Stage (Except Failure Text) := do
  let r ← (c.byLines source).attempt
  pure (r.mapError Failure.ofPayload)

/-- The literal rules and the layout alone. -/
def fallback (c : Converter) (source : Text) : Stage Text :=
  layOut c.settings (c.rules.apply source).lines

/-- The failure on top of what the fallback gives, or in front of the fallback's own failure. -/
def recover (f : Failure) (fallback : Stage Text) : Stage Text := do
  match ← fallback.attempt with
  | .ok code => pure (f.renderOver code)
  | .error p =>
    let again := Failure.ofPayload p
    Stage.report (.fallbackFailed again)
    pure (f.renderFatal again)

/-- The code that a generator gives, tidied. -/
def generate (c : Converter) (g : Generator) (source : Text) : Stage (Except Failure Text) := do
  match ← g.ask (Generated.prompt source) with
  | .error f => pure (.error f)
  | .ok t =>
    if (Generated.extract t).isEmpty then
      pure (.error (.generator "no code in generated text"))
    else
      pure (.ok (Generated.tidy c.settings (Generated.extract t)))

/-- The generated code, if there is a generator and it is of use. -/
def generated? (c : Converter) (source : Text) : Stage (Option Text) := do
  match c.generator? with
  | none => pure none
  | some g =>
    match ← (c.generate g source).attempt with
    | .ok (.ok code) => pure (some code)
    | .ok (.error f) =>
      Stage.report (.generatorFailed f)
      pure none
    | .error p =>
      Stage.report (.generatorFailed (Failure.ofPayload p))
      pure none

/-- The conversion by rules, with the fallback behind it. -/
def byRules (c : Converter) (source : Text) : Stage Conversion := do
  match ← c.tryConvert source with
  | .ok code => pure ⟨code, none⟩
  | .error f =>
    Stage.report (.conversionFailed f)
    let code ← recover f (c.fallback source)
    pure ⟨code, some f⟩

/-- The conversion of a script. -/
def convert (c : Converter) (source : Text) : Stage Conversion := do
  match ← c.generated? source with
  | some code => pure ⟨code, none⟩
  | none => c.byRules source

/-- The code of the conversion of a script. -/
def codeOf (c : Converter) (source : Text) : Stage Text := do
  let r ← c.convert source
  pure r.code

end Converter

end Oxidize
