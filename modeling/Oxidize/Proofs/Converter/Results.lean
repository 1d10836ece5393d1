import Oxidize.Converter

/-!
# What comes out of the stages

The result of a stage under a watch, one equation for each way to build stages (`Stage.result_bind`)
and one for each stage of a conversion. The rules break off where the watch breaks off one of their
two events (`rulesFault?`), and the fallback only where it leaves blocks open (`openFault?`), so the
same watch can break off the rules alone, or both. The answer of a code generator counts if there is
code in it (`usable?`); if not, the rules apply as if there were no generator (`result_convert`), as
long as the watch lets the report on the generator pass.
-/

namespace Oxidize

namespace Stage

variable {α β : Type}

theorem result_pure (a : α) (w : Watch) : ((pure a : Stage α) w).result = .ok a :=
  rfl

theorem result_bind (x : Stage α) (f : α → Stage β) (w : Watch) :
    ((x >>= f) w).result = (x w).result.bind fun a => (f a w).result := by
  rw [bind_apply]
  rcases x w with ⟨acts, p | a⟩ <;> rfl

theorem result_report (e : Event) (w : Watch) :
    (report e w).result = (w e).elim (.ok ()) .error := by
  rw [report]
  cases w e <;> rfl

theorem result_report_bind {e : Event} {w : Watch} (h : w e = none) (f : Unit → Stage α) :
    ((report e >>= f) w).result = (f () w).result := by
  rw [result_bind, result_report, h]
  rfl

theorem result_attempt (x : Stage α) (w : Watch) : (attempt x w).result = .ok (x w).result :=
  rfl

end Stage

namespace Converter

/-- The payload with which the layout of lines breaks off, if it does: where they leave blocks
open. -/
def openFault? (w : Watch) (ls : List Text) : Option Payload :=
  if Layout.finalDepth 0 ls = 0 then none else w (.blocksOpen (Layout.finalDepth 0 ls))

/-- The payload with which the conversion by rules breaks off, if it does. -/
def rulesFault? (c : Converter) (source : Text) (w : Watch) : Option Payload :=
  let ls := Line.convertAll (c.rules.apply source)
  (w (.linesConverted ls.length)).or (openFault? w ls)

/-- The code that a generator has for a script, tidied, if there is a generator and its answer holds
code. -/
def usable? (c : Converter) (source : Text) : Option Text :=
  c.generator?.bind fun g =>
    match g (Generated.prompt source) with
    | .text t =>
      if Generated.extract t = [] then none
      else some (Generated.tidy c.settings (Generated.extract t))
    | _ => none

theorem usable?_ne_none_iff (c : Converter) (source : Text) :
    c.usable? source ≠ none ↔ ∃ g t, c.generator? = some g ∧
      g (Generated.prompt source) = .text t ∧ Generated.extract t ≠ [] := by
  rw [usable?]
  rcases c.generator? with _ | g
  · simp only [Option.bind_none, ne_eq, not_true_eq_false, reduceCtorEq, false_and, exists_false]
  simp only [Option.bind_some, Option.some.injEq]
  rcases hg : g (Generated.prompt source) with t | f | p
  · by_cases h : Generated.extract t = []
    · simp [h, hg]
    · simp [h, hg]
  · simp [hg]
  · simp [hg]

theorem result_layOut (s : Settings) (ls : List Text) (w : Watch) :
    (layOut s ls w).result = (openFault? w ls).elim (.ok (Layout.finish s ls)) .error := by
  rw [layOut, openFault?]
  by_cases h : Layout.finalDepth 0 ls = 0
  · simp only [h]
    rfl
  · simp only [h, ne_eq, not_false_eq_true, if_true, if_false]
    rw [Stage.result_bind, Stage.result_report]
    cases w (.blocksOpen (Layout.finalDepth 0 ls)) <;> rfl

theorem result_fallback (c : Converter) (source : Text) (w : Watch) :
    (c.fallback source w).result =
      (openFault? w (c.rules.apply source).lines).elim
        (.ok (Layout.finish c.settings (c.rules.apply source).lines)) .error :=
  result_layOut _ _ _

theorem result_byLines (c : Converter) (source : Text) (w : Watch) :
    (c.byLines source w).result =
      (c.rulesFault? source w).elim
        (.ok (Layout.finish c.settings (Line.convertAll (c.rules.apply source)))) .error := by
  rw [byLines, rulesFault?, Stage.result_bind, Stage.result_report]
  cases w (.linesConverted (Line.convertAll (c.rules.apply source)).length) with
  | none => exact result_layOut _ _ w
  | some p => rfl

theorem result_tryConvert (c : Converter) (source : Text) (w : Watch) :
    (c.tryConvert source w).result =
      .ok ((c.rulesFault? source w).elim
        (.ok (Layout.finish c.settings (Line.convertAll (c.rules.apply source))))
        fun p => .error (Failure.ofPayload p)) := by
  rw [tryConvert, Stage.result_bind, Stage.result_attempt, result_byLines]
  cases c.rulesFault? source w <;> rfl

theorem result_generate (c : Converter) (g : Generator) (source : Text) (w : Watch) :
    (c.generate g source w).result =
      match g (Generated.prompt source) with
      | .brokenOff p => .error p
      | .failed f => .ok (.error f)
      | .text t =>
        if Generated.extract t = [] then .ok (.error (.generator "no code in generated text"))
        else .ok (.ok (Generated.tidy c.settings (Generated.extract t))) := by
  rw [generate, Stage.result_bind]
  simp only [Generator.ask]
  rcases g (Generated.prompt source) with t | f | p
  · by_cases h : Generated.extract t = []
    · simp only [Except.bind, h]
      rfl
    · simp only [Except.bind, h, List.isEmpty_iff, if_false]
      rfl
  · rfl
  · rfl

/-! ### The generator and then the rules -/

section Passing

variable {w : Watch} (hw : ∀ f, w (.generatorFailed f) = none)

include hw

theorem result_generated? (c : Converter) (source : Text) :
    (c.generated? source w).result = .ok (c.usable? source) := by
  have hpass : ∀ f, ((do Stage.report (.generatorFailed f); pure none : Stage (Option Text))
      w).result = .ok none :=
    fun f => Stage.result_report_bind (hw f) _
  rw [generated?, usable?]
  rcases c.generator? with _ | g
  · rfl
  simp only [Option.bind_some, Stage.result_bind, Stage.result_attempt, Except.bind,
    result_generate]
  rcases g (Generated.prompt source) with t | f | p
  · by_cases h : Generated.extract t = []
    · simp only [h, if_true, hpass]
    · simp only [h, if_false, Stage.result_pure]
  · simp only [hpass]
  · simp only [hpass]

theorem result_convert (c : Converter) (source : Text) :
    (c.convert source w).result = match c.usable? source with
      | some code => .ok ⟨code, none⟩
      | none => (c.byRules source w).result := by
  rw [convert, Stage.result_bind, result_generated? hw]
  cases c.usable? source <;> rfl

end Passing

end Converter

end Oxidize
