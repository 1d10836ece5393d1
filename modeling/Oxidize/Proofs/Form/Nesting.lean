import Oxidize.Proofs.Form.Tests
import Oxidize.Proofs.Pattern.Found
import Oxidize.Proofs.Text.Nesting

/-!
# Nested brackets and the inline forms

What the inline forms and the membership forms do to brackets that are open around a piece of code.
Most forms keep brackets that fit. Two of them put a part of their match into parentheses of its
own: the step of a range and the item of a membership test. There the brackets fit exactly if this
part is well nested by itself.
-/

namespace Oxidize

open Pattern Text

variable {s s' : List Char} {x y t u : Text}

/-! ### Operands -/

/-- The pieces of an operand: characters, and parentheses without further ones inside. -/
inductive Pieces : Text → Prop
  | nil : Pieces []
  | char {c : Char} {t : Text} (hcomma : c ≠ ',') (hopening : c ≠ '(') (hclosing : c ≠ ')')
      (h : Pieces t) : Pieces (c :: t)
  | group {w t : Text} (hopening : '(' ∉ w) (hclosing : ')' ∉ w) (h : Pieces t) :
      Pieces ('(' :: (w ++ ')' :: t))

theorem Pieces.append (ht : Pieces t) (hu : Pieces u) : Pieces (t ++ u) := by
  induction ht with
  | nil => exact hu
  | char hcomma hopening hclosing _ ih => exact .char hcomma hopening hclosing ih
  | group hopening hclosing _ ih =>
    rw [List.cons_append, List.append_assoc, List.cons_append]
    exact .group hopening hclosing ih

theorem IsOperand.pieces (h : IsOperand t) : Pieces t := by
  have hpiece {u : Text} {fs : List (Field × Text)}
      (hu : (alt (one (noneOf ",()")) (sequence [text "(", span (noneOf "()"), text ")"])).Reads
        u fs) : Pieces u := by
    rcases hu with ⟨⟨c, hc, rfl⟩, -⟩ | hu
    · have hc : c ≠ ',' ∧ c ≠ '(' ∧ c ≠ ')' := by simpa [noneOf] using hc
      exact .char hc.1 hc.2.1 hc.2.2 .nil
    · simp (disch := decide) only [reads_sequence_text, reads_sequence_plain (p := span _),
        reads_sequence_nil] at hu
      obtain ⟨_, rfl, w, _, ⟨hw, -⟩, rfl, _, rfl, rfl, -⟩ := hu
      exact .group (not_mem_of_noneOf hw (by decide)) (not_mem_of_noneOf hw (by decide)) .nil
  obtain ⟨v, w, _, _, ⟨hv, hw⟩, rfl, -⟩ := h
  refine (hpiece hv).append ?_
  clear hv
  induction hw with
  | nil => exact .nil
  | cons first _ ih => exact (hpiece first).append ih

theorem Pieces.confined (h : Pieces t) : Confined t := by
  induction h with
  | nil => exact confined_nil
  | char _ hopening hclosing _ ih => exact (confined_singleton hopening hclosing).append ih
  | @group w t hopening hclosing _ ih =>
    have hsplit : '(' :: (w ++ ')' :: t) = '(' :: (w ++ [')']) ++ t := by simp
    rw [hsplit]
    exact (confined_of_not_mem hopening hclosing).parentheses.append ih

theorem IsOperand.confined (h : IsOperand t) : Confined t :=
  h.pieces.confined

/-! ### Single replacements -/

theorem Inline.Turns.nest_printValue (h : Inline.printValue.Turns x y) (s : List Char) :
    nest y s = nest x s := by
  cases h with
  | @printValue c arg hc harg =>
    have hx : skeleton ("println!(" ++ c :: arg ++ ")") =
        skeleton ('(' :: (c :: arg ++ [')'])) := by
      simp +decide [skeleton_cons]
    have hy : skeleton ("println!(\"\x7b\x7d\", " ++ c :: arg ++ ")") =
        skeleton ('(' :: '{' :: '}' :: (c :: arg ++ [')'])) := by
      simp +decide [skeleton_cons]
    rw [nest_congr hx, nest_congr hy]
    rfl

/-- What is left of a call on confined text opens and closes what the call did, if it has the
brackets of that text. -/
theorem nest_of_call {w : Text} (hx : skeleton x = skeleton ('(' :: (w ++ [')'])))
    (hy : ∀ s, nest y s = nest w s) (hw : Confined w) (h : nest x s = some s') :
    nest y s = some s' := by
  rw [nest_congr hx] at h
  obtain ⟨rfl, hnested⟩ := hw.nested_of_nest h
  rw [hy, hnested.nest]

/-- The forms that keep the parts of a call and drop its parentheses. -/
def Inline.unwrapping : List Inline :=
  [length, rangeBetween, rangeTo]

theorem Inline.Turns.nest_unwrapping {i : Inline} (hi : i ∈ unwrapping) (h : i.Turns x y)
    (hx : nest x s = some s') : nest y s = some s' := by
  cases h with
  | @length g arg g' hg harg hg' =>
    refine nest_of_call (w := arg) ?_ (fun s => ?_)
      (confined_of_not_mem (harg.not_mem rfl) (harg.not_mem rfl)) hx
    · simp +decide [skeleton_cons, hg.skeleton_eq, hg'.skeleton_eq]
    · have hresult : skeleton (arg ++ ".len()") = skeleton (arg ++ "()") := by
        simp +decide [skeleton_cons]
      rw [nest_congr hresult, nest_append]
      cases nest arg s <;> rfl
  | @rangeBetween g₁ lower g₂ g₃ upper g₄ h₁ hlower h₂ h₃ hupper h₄ =>
    refine nest_of_call (w := lower ++ upper) ?_ (nest_congr ?_)
      (hlower.confined.append hupper.confined) hx
    · simp +decide [skeleton_cons, h₁.skeleton_eq, h₂.skeleton_eq, h₃.skeleton_eq, h₄.skeleton_eq]
    · simp +decide [skeleton_cons]
  | @rangeTo g₁ upper g₂ h₁ hupper h₂ =>
    refine nest_of_call (w := upper) ?_ (nest_congr ?_) hupper.confined hx
    · simp +decide [skeleton_cons, h₁.skeleton_eq, h₂.skeleton_eq]
    · simp +decide [skeleton_cons]
  | _ => simp [unwrapping] at hi

/-- In a range with a step, the step closes what the bounds leave open. -/
theorem nest_steppedCall {lower upper step : Text} (hlower : IsOperand lower)
    (hupper : IsOperand upper) (hstep : IsOperand step)
    (h : nest ('(' :: (((lower ++ upper) ++ step) ++ [')'])) s = some s') :
    s' = s ∧ ∃ u, '(' ∉ u ∧ nest (lower ++ upper) [] = some u ∧ nest step u = some [] := by
  have hbounds := hlower.confined.append hupper.confined
  obtain ⟨rfl, hnested⟩ := (hbounds.append hstep.confined).nested_of_nest h
  obtain ⟨u, hu, hclosed⟩ := Option.bind_eq_some_iff.1 ((nest_append _ step []).symm.trans hnested)
  obtain ⟨u', hmem, heq, hu'⟩ := hbounds [] [] _ List.not_mem_nil (nest_weaken hu ['('])
  obtain rfl : u = u' := Option.some.inj (hu.symm.trans hu')
  exact ⟨rfl, u, hmem, hu, hclosed⟩

/-- A range with a step fits on if the step is well nested, and only then. -/
theorem nest_steppedRange {lower upper step : Text} (hlower : IsOperand lower)
    (hupper : IsOperand upper) (hstep : IsOperand step)
    (hx : nest ('(' :: (((lower ++ upper) ++ step) ++ [')'])) s = some s') :
    nest ("(" ++ lower ++ ".." ++ upper ++ ").step_by(" ++ step ++ ")") s =
      if Nested step then some s' else none := by
  have hresult : skeleton ("(" ++ lower ++ ".." ++ upper ++ ").step_by(" ++ step ++ ")") =
      skeleton ('(' :: ((lower ++ upper) ++ [')']) ++ '(' :: (step ++ [')'])) := by
    simp +decide [skeleton_cons]
  obtain ⟨rfl, u, -, hu, hclosed⟩ := nest_steppedCall hlower hupper hstep hx
  have hiff : Nested (lower ++ upper) ↔ Nested step := by
    rw [nested_iff_of_nest hclosed, Nested, hu, Option.some.injEq]
  have hbounds := hlower.confined.append hupper.confined
  rw [nest_congr hresult, nest_append, hbounds.nest_parentheses]
  by_cases h : Nested step
  · rw [if_pos (hiff.2 h), if_pos h, Option.bind_some, hstep.confined.nest_parentheses, if_pos h]
  · rw [if_neg (mt hiff.1 h), if_neg h, Option.bind_none]

/-- A question fits on where its test did if the item is well nested, and only then. -/
theorem nest_question (k : Membership) {item s₁ s₂ : Text} (collection : Text)
    (hitem : Run isPlace item) (h₁ : Gap s₁) (h₂ : Gap s₂) (s : List Char) :
    nest (k.question item collection) s =
      if Nested item then nest (item ++ (s₁ ++ (k.word ++ (s₂ ++ collection)))) s else none := by
  have hconfined : Confined item := confined_of_not_mem (hitem.not_mem rfl) (hitem.not_mem rfl)
  have hbare : skeleton k.mark = [] ∧ skeleton k.word = [] := by cases k <;> decide
  have htest : skeleton (item ++ (s₁ ++ (k.word ++ (s₂ ++ collection)))) =
      skeleton (item ++ collection) := by
    simp [h₁.skeleton_eq, h₂.skeleton_eq, hbare]
  have hresult : skeleton (k.question item collection) =
      skeleton (collection ++ '(' :: (item ++ [')'])) := by
    simp +decide [Membership.question, skeleton_cons, hbare]
  rw [nest_congr hresult, nest_congr htest, nest_append, nest_append]
  simp only [funext hconfined.nest_parentheses]
  split
  · rename_i hnested
    rw [hnested.nest, Option.bind_some]
    cases nest collection s <;> rfl
  · cases nest collection s <;> rfl

/-! ### Matches -/

section Matches

variable {m : Match Field}

/-- The parts of a range with a step: what its brackets are, and what it becomes. -/
theorem exists_of_reads_rangeStep (h : Inline.rangeStep.form.pattern.Reads x m.fields) :
    ∃ lower upper, IsOperand lower ∧ IsOperand upper ∧ IsOperand (m.get .step) ∧
      skeleton x = skeleton ('(' :: (((lower ++ upper) ++ m.get .step) ++ [')'])) ∧
      Inline.rangeStep.form.expand m =
        "(" ++ lower ++ ".." ++ upper ++ ").step_by(" ++ m.get .step ++ ")" := by
  obtain ⟨stop, fs⟩ := m
  simp only [Inline.form, Inline.pattern, Inline.reads_range, reads_sequence_argument,
    reads_sequence_nil] at h
  obtain ⟨_, ⟨g₁, lower, g₂, _, _, h₁, hlower, h₂, rfl, rfl, g₃, upper, g₄, _, _, h₃, hupper, h₄,
    rfl, rfl, g₅, step, g₆, _, _, h₅, hstep, h₆, rfl, rfl, rfl, rfl⟩, rfl⟩ := h
  refine ⟨lower, upper, hlower, hupper, hstep, ?_, ?_⟩
  · simp +decide [skeleton_cons, h₁.skeleton_eq, h₂.skeleton_eq, h₃.skeleton_eq, h₄.skeleton_eq,
      h₅.skeleton_eq, h₆.skeleton_eq]
  · simp [Form.expand, Inline.form, Inline.template, Piece.expand]

theorem nest_expand_rangeStep (h : Inline.rangeStep.form.pattern.Reads x m.fields)
    (hx : nest x s = some s') :
    nest (Inline.rangeStep.form.expand m) s =
      if Nested (m.get .step) then some s' else none := by
  obtain ⟨lower, upper, hlower, hupper, hstep, hbrackets, hexpand⟩ := exists_of_reads_rangeStep h
  rw [nest_congr hbrackets] at hx
  rw [hexpand, nest_steppedRange hlower hupper hstep hx]

theorem nest_expand_membership {k : Membership} (h : k.form.pattern.Reads x m.fields)
    (s : List Char) :
    nest (k.form.expand m) s = if Nested (m.get .item) then nest x s else none := by
  obtain ⟨stop, fs⟩ := m
  simp (disch := decide) only [Membership.pattern_form, Membership.test, reads_sequence_text,
    reads_sequence_space, reads_sequence_field, reads_chars, reads_sequence_nil] at h
  obtain ⟨item, _, _, ⟨hitem, -⟩, rfl, rfl, s₁, _, h₁, rfl, _, rfl, s₂, _, h₂, rfl, collection,
    _, _, -, rfl, rfl, rfl, rfl⟩ := h
  rw [Membership.expand_form, nest_question k collection hitem h₁.gap h₂.gap, List.append_nil]
  rfl

end Matches

/-! ### Passes -/

/-- What keeps brackets that fit in single replacements, keeps them in all. -/
theorem nest_recastAll {f : Form}
    (hf : ∀ {x y s s'}, f.Recasts x y → nest x s = some s' → nest y s = some s')
    (ht : nest t s = some s') : nest (f.recastAll t) s = some s' := by
  refine f.recastAll_preserves (fun u => nest u s = some s') (fun p x y q hxy h => ?_) ht
  simp only [nest_append, Option.bind_eq_some_iff] at h ⊢
  obtain ⟨s₁, hp, s₂, hx, hq⟩ := h
  exact ⟨s₁, hp, s₂, hf hxy hx, hq⟩

/-- The ranges with a step in a text whose brackets fit: they still do if all steps are well nested,
and only then. -/
theorem nest_rangeSteps_iff (ht : nest t s = some s') :
    nest (Inline.rangeStep.form.recastAll t) s = some s' ↔
      ∀ m ∈ Inline.rangeStep.form.pattern.found t, Nested (m.get .step) := by
  have hwalk := replaces_replaceAll Inline.rangeStep.form.pattern Inline.rangeStep.form.expand t
  rw [Form.recastAll]
  generalize Inline.rangeStep.form.pattern.replaceAll Inline.rangeStep.form.expand t = u,
    Inline.rangeStep.form.pattern.found t = ms at hwalk
  induction hwalk generalizing s with
  | nil => simp [ht]
  | keep c _ ih =>
    obtain ⟨s₁, hs₁, ht⟩ := Option.bind_eq_some_iff.1 ht
    rw [nest_cons, hs₁, Option.bind_some]
    exact ih ht
  | @swap x t u m ms hx _ ih =>
    obtain ⟨s₁, hs₁, ht⟩ := Option.bind_eq_some_iff.1 ((nest_append x t s).symm.trans ht)
    rw [nest_append, nest_expand_rangeStep hx hs₁, List.forall_mem_cons]
    by_cases hstep : Nested (m.get .step)
    · simp [hstep, ih ht]
    · simp [hstep]

/-- The tests of one kind: the brackets fit if they did before and all items are well nested, and
only then. -/
theorem nest_membership_iff (k : Membership) (t : Text) (s s' : List Char) :
    nest (k.form.recastAll t) s = some s' ↔
      nest t s = some s' ∧ ∀ m ∈ k.form.pattern.found t, Nested (m.get .item) := by
  have hwalk := replaces_replaceAll k.form.pattern k.form.expand t
  rw [Form.recastAll]
  generalize k.form.pattern.replaceAll k.form.expand t = u, k.form.pattern.found t = ms at hwalk
  induction hwalk generalizing s with
  | nil => simp
  | keep c _ ih =>
    rw [nest_cons, nest_cons]
    cases turn c s with
    | none => simp
    | some s₁ => exact ih s₁
  | @swap x t u m ms hx _ ih =>
    rw [nest_append, nest_append, nest_expand_membership hx, List.forall_mem_cons]
    by_cases hitem : Nested (m.get .item)
    · cases nest x s with
      | none => simp
      | some s₁ => simp [hitem, ih]
    · simp [hitem]

end Oxidize
