import Oxidize.Proofs.Line.Formats
import Oxidize.Proofs.Line.Indentation
import Oxidize.Proofs.Line.Ranges

/-!
# Loops over ranges

What the inline forms do to the head that the header has written (`RangeLoop.opening`): the lengths
among the operands are turned, each where it stands (`RangeLoop.measures_opening`), and nothing else
is found. No form of a range applies a second time, since nowhere does a parenthesis stand behind
the last letter of `range` (`Uncalled`). With the header that means that the whole line becomes the
loop over its limits (`Line.convert_rangeLoop`).
-/

namespace Oxidize

open Pattern Text

/-! ### The pieces of a head -/

section Pieces

variable {P : Text → Prop} {f : Operand → Text}

/-- What holds of the pieces of a head and is kept where texts are joined holds of the head. -/
theorem RangeLoop.opening_of_pieces (join : ∀ {u v}, P u → P v → P (u ++ v))
    (dotted : ∀ {u}, (∀ c ∈ u, isDotted c) → P u)
    (marks : ∀ u ∈ ([" ", " (", ").step_by(", ")", " \x7b"] : List Text), P u)
    (operand : ∀ o, P (f o)) (l : RangeLoop) : P (l.opening f) := by
  have hdots : P ".." := dotted (by decide)
  have hlimits : P (" " ++ l.range.limits f) := by
    cases l.range with
    | upTo upper => exact join (marks _ (by simp)) (join (dotted (by decide)) (operand _))
    | between lower upper =>
      exact join (marks _ (by simp)) (join (join (operand _) hdots) (operand _))
    | stepping lower upper step =>
      have hcut : " " ++ (Range.stepping lower upper step).limits f = " (" ++ (f lower.operand ++
          (".." ++ (f upper.operand ++ (").step_by(" ++ (f step.operand ++ ")"))))) := by
        simp [Range.limits]
      rw [hcut]
      exact join (marks _ (by simp)) (join (operand _) (join hdots (join (operand _)
        (join (marks _ (by simp)) (join (operand _) (marks _ (by simp)))))))
  have hcut : l.opening f = "for" ++ (" " ++ (l.target ++ (" " ++ ("in" ++
      ((" " ++ l.range.limits f) ++ " \x7b"))))) := by
    simp [opening, front]
  rw [hcut]
  exact join (dotted (by decide)) (join (marks _ (by simp)) (join (dotted l.dotted_target)
    (join (marks _ (by simp)) (join (dotted (by decide)) (join hlimits (marks _ (by simp)))))))

end Pieces

theorem RangeLoop.spelled_opening (l : RangeLoop) : Spelled (l.opening Operand.source) :=
  l.opening_of_pieces Spelled.append spelled_of_dotted (by decide) Operand.spelled_source

/-! ### Ranges that are not called -/

/-- No range is called: no parenthesis stands in front or behind the last letter of `range`. -/
def Uncalled (t : Text) : Prop :=
  t.head? ≠ some '(' ∧ ¬ "e(".toList <:+: t

instance (t : Text) : Decidable (Uncalled t) :=
  inferInstanceAs (Decidable (_ ∧ _))

section Calls

variable {u v t : Text}

theorem Uncalled.append (hu : Uncalled u) (hv : Uncalled v) : Uncalled (u ++ v) := by
  refine ⟨?_, fun h => ?_⟩
  · cases u with
    | nil => exact hv.1
    | cons c u => exact hu.1
  · rcases List.infix_append_iff_ne_nil.1 h with h | h | ⟨w, x, hw, hx, heq, -, hstart⟩
    · exact hu.2 h
    · exact hv.2 h
    · -- A call that lies in both texts is cut in front of its parenthesis.
      obtain ⟨c, w, rfl⟩ := List.exists_cons_of_ne_nil hw
      obtain ⟨d, x, rfl⟩ := List.exists_cons_of_ne_nil hx
      have hd : d = '(' := by
        have hcut : ['e', '('] = c :: (w ++ d :: x) := heq
        cases w <;> simp at hcut
        exact hcut.2.1.symm
      obtain ⟨r, rfl⟩ := hstart
      exact hv.1 (congrArg some hd)

theorem uncalled_of_dotted (hu : ∀ c ∈ u, isDotted c) : Uncalled u := by
  have hno : '(' ∉ u := fun h => nomatch hu '(' h
  exact ⟨fun h => hno (List.mem_of_mem_head? h), fun h => hno (h.subset (by decide))⟩

theorem Operand.uncalled_target (o : Operand) : Uncalled o.target := by
  have hpath := uncalled_of_dotted o.dotted.2
  rw [target]
  split
  · exact hpath.append (by decide +kernel)
  · exact hpath

theorem RangeLoop.uncalled_opening (l : RangeLoop) : Uncalled (l.opening Operand.target) :=
  l.opening_of_pieces Uncalled.append uncalled_of_dotted (by decide +kernel) Operand.uncalled_target

theorem Uncalled.find?_eq_none {i : Inline} (ht : Uncalled t)
    (hi : i ∈ [Inline.rangeStep, .rangeBetween, .rangeTo]) : i.form.pattern.find? t = none := by
  refine Form.find?_eq_none_of_infix (fun x y hxy => ?_) ht.2
  have hlast : "e(".toList <:+: "range(".toList := by decide +kernel
  have hcall : "range(".toList <+: x := by
    cases Inline.turns_of_recasts hxy <;> simp at hi ⊢
  exact hlast.trans hcall.isInfix

end Calls

/-! ### Lengths among the operands -/

namespace Range

/-- The operands of a range are measured, each where it stands. -/
theorem measures_limits (r : Range) {t t' : Text} (ht : ∀ d ∈ t.head?, d ∉ "len(".toList)
    (h : Measures t t') :
    Measures (' ' :: (r.limits Operand.source ++ t)) (' ' :: (r.limits Operand.target ++ t')) := by
  cases r with
  | upTo upper =>
    simpa [limits] using Measures.other (u := " 0.") (by decide) (.operand upper.operand rfl ht h)
  | between lower upper =>
    have hupper := Measures.other (u := ".") (by decide)
      (.operand upper.operand (c := '.') rfl ht h)
    have hlower := Measures.operand lower.operand (c := ' ') rfl (by rintro _ ⟨rfl⟩; decide) hupper
    simpa [limits] using hlower
  | stepping lower upper step =>
    have hend := Measures.other (u := ")") (by decide) h
    have hstep := Measures.other (u := ").step_by") (by decide)
      (.operand step.operand (c := '(') rfl (by rintro _ ⟨rfl⟩; decide) hend)
    have hupper := Measures.other (u := ".") (by decide)
      (.operand upper.operand (c := '.') rfl (by rintro _ ⟨rfl⟩; decide) hstep)
    have hlower := Measures.other (u := " ") (by decide)
      (.operand lower.operand (c := '(') rfl (by rintro _ ⟨rfl⟩; decide) hupper)
    simpa [limits] using hlower

end Range

namespace RangeLoop

variable (l : RangeLoop)

theorem measures_opening : Measures (l.opening Operand.source) (l.opening Operand.target) := by
  have hlimits := l.range.measures_limits (by rintro _ ⟨rfl⟩; decide)
    (Measures.other (u := " \x7b") (by decide) .nil)
  have htarget := Measures.path l.dotted_target (by rintro _ ⟨rfl⟩; decide)
    (.other (u := " in") (by decide) hlimits)
  simpa [opening, front] using Measures.other (u := "for ") (by decide) htarget

/-- The inline forms turn the lengths of a head and nothing else. -/
theorem expressions_opening :
    Line.expressions (l.opening Operand.source) = l.opening Operand.target := by
  have hprint : Inline.printValue.form.recastAll (l.opening Operand.source) =
      l.opening Operand.source := by
    refine Form.recastAll_eq_self (Form.find?_eq_none_of_infix (w := "println!(")
      (fun x y hxy => ?_) fun h => ?_)
    · cases Inline.turns_of_recasts hxy
      rw [List.append_assoc]
      exact (List.prefix_append _ _).isInfix
    · exact l.spelled_opening.not_mem (c := '!') (by decide) (h.subset (by decide))
  have hlength : Inline.length.form.recastAll (l.opening Operand.source) =
      l.opening Operand.target :=
    l.measures_opening none
  have hranges : Form.recastWith ([Inline.rangeStep, .rangeBetween, .rangeTo].map Inline.form)
      (l.opening Operand.target) = l.opening Operand.target :=
    Form.recastWith_eq_self (List.forall_mem_map.2 fun i => l.uncalled_opening.find?_eq_none)
  rw [Line.expressions_of_not_mem (l.spelled_opening.not_mem (by decide)), Inline.growing,
    List.map_cons, List.map_cons, Form.recastWith_cons, Form.recastWith_cons, hprint, hlength,
    hranges]

theorem inline_opening : Line.inline (l.opening Operand.source) = l.opening Operand.target := by
  have hloop : Line.isLoop (l.opening Operand.target).trimStart := by
    have hfor : l.opening Operand.target =
        "for " ++ (l.target ++ (" in " ++ (l.range.limits Operand.target ++ " \x7b"))) := by
      simp [opening, front]
    rw [hfor]
    rfl
  simp only [Line.inline, l.expressions_opening]
  rw [if_neg (by simp [hloop])]

end RangeLoop

namespace Line

/-- A loop over a range becomes a loop over its limits: up to the one operand, between the two, or
between the first two in steps of the third. The operands lose the spaces around them and their
lengths are turned, everything else of them is kept. -/
theorem convert_rangeLoop (n : Nat) (l : RangeLoop) :
    convert (spaces n ++ l.line) = spaces n ++ l.opening Operand.target := by
  have hspaces : ∀ c ∈ spaces n, isAsciiSpace c := by
    intro c hc
    obtain rfl := List.eq_of_mem_replicate hc
    rfl
  rw [convert_append hspaces,
    convert_of_header? (l.spelled_line.not_mem (by decide)) l.header?_line, l.inline_opening]

example : convert "  for i in range( a.b , len(xs),2 ) : " =
    "  for i in (a.b..xs.len()).step_by(2) \x7b".toList := by
  decide +kernel

end Line

end Oxidize
