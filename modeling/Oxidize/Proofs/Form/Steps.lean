import Oxidize.Proofs.Form.Growth
import Oxidize.Proofs.Form.Nesting
import Oxidize.Proofs.Text.Ledger

/-!
# Steps that are not well nested

The step of a range is written behind `.step_by(`. If it is not well nested, its square brackets and
braces do not balance. That makes the text flawed (`flawed_rangeSteps`), and the forms for ranges
without a step, which come later, do not mend it: they drop parentheses behind `range`, but none
behind a `y` (`flawed_recastAll`).
-/

namespace Oxidize

open Pattern Text

variable {s s' : List Char} {x y t v : Text} {L M : Ledger} {around : Int}

namespace Text.Ledger

theorem scan_pieces (hv : Pieces v) (L : Ledger) :
    (L.scan v).surplus = L.surplus + angularSum v ∧ (L.scan v).outer = L.outer := by
  induction hv generalizing L with
  | nil => simp
  | @char c t _ hopening hclosing _ ih =>
    obtain ⟨hsurplus, houter⟩ := ih (L.step c)
    rw [step_other hopening hclosing] at hsurplus houter
    rw [scan_cons, step_other hopening hclosing, hsurplus, houter, angularSum_cons]
    exact ⟨Int.add_assoc _ _ _, rfl⟩
  | @group w t hopening hclosing _ ih =>
    have hsplit : '(' :: (w ++ ')' :: t) = '(' :: (w ++ [')']) ++ t := by simp
    have hparentheses : angular '(' = 0 ∧ angular ')' = 0 := by decide
    obtain ⟨hsurplus, houter⟩ := ih (L.scan ('(' :: (w ++ [')'])))
    rw [hsplit, scan_append, hsurplus, houter, scan_group hopening hclosing]
    simp [hparentheses, Int.add_assoc]

/-! ### The parenthesis of a range -/

/-- One scan is in the parenthesis of a call, the other one where the call is dropped. -/
structure Within (around : Int) (L M : Ledger) : Prop where
  marks : L.marks → M.marks
  surplus : around + L.surplus = M.surplus
  outer : L.outer = (false, around) :: M.outer
  flawed : L.flawed → M.flawed

theorem within_range (L : Ledger) : Within L.surplus (L.scan "range(") L := by
  have hplain : ∀ c ∈ "range".toList, angular c = 0 := by decide
  have hscan : L.scan "range(" = ⟨false, 0, (false, L.surplus + angular 'r' + angular 'a' +
      angular 'n' + angular 'g' + angular 'e') :: L.outer, L.flawed⟩ := rfl
  rw [hscan]
  refine ⟨(absurd · Bool.false_ne_true), Int.add_zero _, ?_, id⟩
  simp [hplain]

theorem Within.pieces (hv : Pieces v) (h : Within around L M) :
    Within around (L.scan v) (M.scan v) := by
  induction hv generalizing L M with
  | nil => exact h
  | @char c t _ hopening hclosing _ ih =>
    refine ih ?_
    rw [step_other hopening hclosing, step_other hopening hclosing]
    exact ⟨id, by rw [← h.surplus, Int.add_assoc], h.outer, h.flawed⟩
  | @group w t hopening hclosing _ ih =>
    have hsplit : '(' :: (w ++ ')' :: t) = '(' :: (w ++ [')']) ++ t := by simp
    rw [hsplit, scan_append, scan_append]
    refine ih ?_
    rw [scan_group hopening hclosing, scan_group hopening hclosing]
    refine ⟨id, by rw [← h.surplus, Int.add_assoc], h.outer, ?_⟩
    simp only [Bool.or_eq_true, Bool.and_eq_true]
    exact Or.imp h.flawed (And.imp_left h.marks)

/-- White space in the call, which is dropped. -/
theorem Within.gap (hv : Gap v) (h : Within around L M) : Within around (L.scan v) M := by
  induction v generalizing L with
  | nil => exact h
  | cons c v ih =>
    obtain ⟨hc, hv⟩ := List.forall_mem_cons.1 hv
    have hmem : c ∉ "()y".toList := not_mem_of_isSpace (by decide) hc
    have hne : c ≠ '(' ∧ c ≠ ')' ∧ c ≠ 'y' := by simpa using hmem
    have hweight : angular c = 0 := by
      rw [angular, Layout.Delimiter.weight_of_isSpace (by decide) hc,
        Layout.Delimiter.weight_of_isSpace (by decide) hc, Int.add_zero]
    refine ih hv ?_
    rw [step_other hne.1 hne.2.1, hweight, Int.add_zero]
    exact ⟨by simp [hne.2.2], h.surplus, h.outer, h.flawed⟩

/-- The comma of the call, which becomes two dots. -/
theorem Within.comma (h : Within around L M) :
    Within around (L.scan ",") (M.scan "..") := by
  have hplain : angular ',' = 0 ∧ angular '.' = 0 := by decide
  have hcomma : L.scan "," = { L with marks := false, surplus := L.surplus + angular ',' } := rfl
  have hdots : M.scan ".." =
      { M with marks := false, surplus := M.surplus + angular '.' + angular '.' } := rfl
  rw [hcomma, hdots, hplain.1, hplain.2, Int.add_zero, Int.add_zero, Int.add_zero]
  exact ⟨(absurd · Bool.false_ne_true), h.surplus, h.outer, h.flawed⟩

/-- The lower bound of a range that begins at zero. -/
theorem Within.zero (hL : L.marks = false) (h : Within around L M) :
    Within around L (M.scan "0..") := by
  have hplain : angular '0' = 0 ∧ angular '.' = 0 := by decide
  have hzero : M.scan "0.." = { M with
      marks := false, surplus := M.surplus + angular '0' + angular '.' + angular '.' } := rfl
  rw [hzero, hplain.1, hplain.2, Int.add_zero, Int.add_zero, Int.add_zero]
  exact ⟨by simp [hL], h.surplus, h.outer, h.flawed⟩

/-- The end of the call. -/
theorem Within.le (h : Within around L M) : (L.scan ")").Le M := by
  have hclose : L.scan ")" =
      ⟨false, around + L.surplus, M.outer, L.flawed || (false && L.surplus ≠ 0)⟩ := by
    have hscan : L.scan ")" = L.close := rfl
    rw [hscan, close, h.outer]
  rw [hclose]
  refine ⟨(absurd · Bool.false_ne_true), h.surplus, List.forall₂_same.2 fun _ _ => ⟨id, rfl⟩, ?_⟩
  simpa using h.flawed

/-- Ranges without a step: the calls are dropped, the marks and flaws stay. -/
theorem le_of_unstepped {i : Inline} (hi : i ∈ [Inline.rangeBetween, .rangeTo])
    (h : i.Turns x y) (L : Ledger) : (L.scan x).Le (L.scan y) := by
  cases h with
  | rangeBetween h₁ hlower h₂ h₃ hupper h₄ =>
    simp only [scan_append]
    exact ((((((within_range L).gap h₁).pieces hlower.pieces).gap h₂).comma.gap h₃).pieces
      hupper.pieces).gap h₄ |>.le
  | rangeTo h₁ hupper h₂ =>
    simp only [scan_append]
    exact ((((within_range L).zero rfl).gap h₁).pieces hupper.pieces).gap h₂ |>.le
  | _ => simp at hi

end Text.Ledger

/-! ### Ranges with a step -/

/-- A step that closes brackets of the bounds does not balance. -/
theorem angularSum_step_ne_zero {step : Text} {u : List Char} (hstep : Pieces step) (hu : '(' ∉ u)
    (hclosed : nest step u = some []) (h : ¬ Nested step) : angularSum step ≠ 0 := by
  obtain ⟨hlayers, -⟩ := Ledger.layers_scan (L := ⟨false, u.length, [], false⟩) (.ground hu) hclosed
  obtain ⟨hsurplus, houter⟩ := Ledger.scan_pieces hstep ⟨false, u.length, [], false⟩
  have hsum : (u.length : Int) + angularSum step = 0 := by
    rw [hsurplus, houter] at hlayers
    exact hlayers.surplus_eq
  have hne : u.length ≠ 0 := fun hnil =>
    h ((nested_iff_of_nest hclosed).2 (List.length_eq_zero_iff.1 hnil))
  omega

theorem Text.Ledger.flawed_scan_step {step : Text} (hstep : Pieces step)
    (h : angularSum step ≠ 0) (L : Ledger) : (L.scan (".step_by(" ++ step ++ ")")).flawed := by
  obtain ⟨around, hopen⟩ : ∃ around, L.scan ".step_by(" =
      ⟨false, 0, (true, around) :: L.outer, L.flawed⟩ := ⟨_, rfl⟩
  obtain ⟨hsurplus, houter⟩ := scan_pieces hstep (L.scan ".step_by(")
  have hclose : ∀ M : Ledger, M.scan ")" = M.close := fun _ => rfl
  rw [hopen, Int.zero_add] at hsurplus
  rw [hopen] at houter
  rw [scan_append, scan_append, hopen, hclose, close, houter, hsurplus]
  simp [h]

/-- A step that is not well nested makes a flaw. -/
theorem flawed_expand_rangeStep {m : Match Field}
    (h : Inline.rangeStep.form.pattern.Reads x m.fields) (hx : nest x s = some s')
    (hnested : ¬ Nested (m.get .step)) (L : Ledger) :
    (L.scan (Inline.rangeStep.form.expand m)).flawed := by
  obtain ⟨lower, upper, hlower, hupper, hstep, hbrackets, hexpand⟩ := exists_of_reads_rangeStep h
  rw [nest_congr hbrackets] at hx
  obtain ⟨-, u, hu, -, hclosed⟩ := nest_steppedCall hlower hupper hstep hx
  have hsum := angularSum_step_ne_zero hstep.pieces hu hclosed hnested
  have hsplit : "(" ++ lower ++ ".." ++ upper ++ ").step_by(" ++ m.get .step ++ ")" =
      ("(" ++ lower ++ ".." ++ upper ++ ")") ++ (".step_by(" ++ m.get .step ++ ")") := by
    simp
  rw [hexpand, hsplit, Ledger.scan_append]
  exact Ledger.flawed_scan_step hstep.pieces hsum _

theorem flawed_rangeSteps (ht : nest t s = some s')
    (h : ∃ m ∈ Inline.rangeStep.form.pattern.found t, ¬ Nested (m.get .step)) (L : Ledger) :
    (L.scan (Inline.rangeStep.form.recastAll t)).flawed := by
  have hwalk := replaces_replaceAll Inline.rangeStep.form.pattern Inline.rangeStep.form.expand t
  rw [Form.recastAll]
  generalize Inline.rangeStep.form.pattern.replaceAll Inline.rangeStep.form.expand t = u,
    Inline.rangeStep.form.pattern.found t = ms at hwalk h
  induction hwalk generalizing s L with
  | nil => simp at h
  | keep c _ ih =>
    obtain ⟨s₁, -, ht⟩ := Option.bind_eq_some_iff.1 ht
    exact ih ht (L.step c) h
  | @swap x t u m ms hx _ ih =>
    obtain ⟨s₁, hs₁, ht⟩ := Option.bind_eq_some_iff.1 ((nest_append x t s).symm.trans ht)
    rw [Ledger.scan_append]
    by_cases hstep : Nested (m.get .step)
    · obtain ⟨m', hm', hnested⟩ := h
      rcases List.mem_cons.1 hm' with rfl | hm'
      · exact absurd hstep hnested
      · exact ih ht _ ⟨m', hm', hnested⟩
    · exact Ledger.flawed_scan (flawed_expand_rangeStep hx hs₁ hstep L) u

/-- Ranges without a step do not mend a flaw. -/
theorem flawed_recastAll {i : Inline} (hi : i ∈ [Inline.rangeBetween, .rangeTo]) (ht : Flawed t) :
    Flawed (i.form.recastAll t) := by
  refine i.form.recastAll_preserves Flawed (fun p x y q hxy h => ?_) ht
  simp only [Flawed, Ledger.scan_append] at h ⊢
  exact ((Ledger.le_of_unstepped hi (Inline.turns_of_recasts hxy) _).scan q).flawed h

/-! ### All forms that grow -/

/-- The code in which ranges with a step are looked for: values are printed and lengths taken. -/
def measured (t : Text) : Text :=
  Form.recastWith ([Inline.printValue, .length].map Inline.form) t

/-- The steps of the ranges in a piece of code, as the form for ranges with a step finds them. -/
def rangeSteps (t : Text) : List Text :=
  (Inline.rangeStep.form.pattern.found (measured t)).map fun m => m.get .step

theorem nested_measured (ht : Nested t) : Nested (measured t) := by
  have hprint := nest_recastAll (f := Inline.printValue.form)
    (fun hxy h => ((Inline.turns_of_recasts hxy).nest_printValue _).trans h) ht
  exact nest_recastAll (f := Inline.length.form)
    (fun hxy h => (Inline.turns_of_recasts hxy).nest_unwrapping (by decide) h) hprint

/-- Well nested brackets stay so if all steps of ranges are well nested, and only then. -/
theorem nested_growing_iff (ht : Nested t) :
    Nested (Form.recastWith (Inline.growing.map Inline.form) t) ↔
      ∀ step ∈ rangeSteps t, Nested step := by
  rw [rangeSteps, List.forall_mem_map]
  have hmeasured := nested_measured ht
  have hlater : ∀ i ∈ [Inline.rangeBetween, .rangeTo], i ∈ Inline.unwrapping := by decide
  constructor
  · intro hnested
    by_contra hstep
    push Not at hstep
    have hflawed : Flawed (Inline.rangeStep.form.recastAll (measured t)) :=
      flawed_rangeSteps hmeasured hstep .start
    exact not_nested_of_flawed
      (flawed_recastAll (by decide) (flawed_recastAll (i := .rangeBetween) (by decide) hflawed))
      hnested
  · intro hsteps
    have hstepped := (nest_rangeSteps_iff hmeasured).2 hsteps
    have keeps {i : Inline} (hi : i ∈ [Inline.rangeBetween, .rangeTo]) {u : Text} (hu : Nested u) :
        Nested (i.form.recastAll u) :=
      nest_recastAll
        (fun hxy h => (Inline.turns_of_recasts hxy).nest_unwrapping (hlater i hi) h) hu
    exact keeps (i := .rangeTo) (by decide) (keeps (i := .rangeBetween) (by decide) hstepped)

end Oxidize
