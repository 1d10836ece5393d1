import Oxidize.Proofs.Form.Steps
import Oxidize.Proofs.Line.Formats
import Oxidize.Proofs.Line.OpenEnds

/-!
# Nested brackets of converted lines

Whether a line with well nested brackets keeps them so when it is converted. Two parts of a line come
into parentheses of their own: the step of a range and the item of a membership test. The brackets
of the result are well nested exactly if those of each such part are (`nested_convert_iff`). Apart
from that a header of a binding, the other inline forms and the semicolon at the end keep brackets
that fit.

The lines here hold no double quotes, no comment, and no header but one of a binding.
-/

namespace Oxidize

open Pattern Text

variable {x y t : Text}

/-! ### Single stages -/

/-- A binding keeps its brackets. -/
theorem Header.Turns.skeleton_eq {h : Header} (hxy : h.Turns x y) (hh : h.construct = .binding) :
    skeleton y = skeleton x := by
  have gaps : ∀ {g}, Gap g → skeleton g = [] := Gap.skeleton_eq
  cases hxy with
  | openBinding | binding => simp +decide [skeleton_cons, *]
  | overRange hi => cases h <;> cases hi <;> cases hh
  | conditional hkey => cases hkey <;> cases hh
  | _ => cases hh

/-- A binding brings no double quotes. -/
theorem Header.Turns.quote_not_mem {h : Header} (hxy : h.Turns x y) (hh : h.construct = .binding)
    (hx : '"' ∉ x) : '"' ∉ y := by
  cases hxy with
  | openBinding | binding =>
    simp_all
  | overRange hi => cases h <;> cases hi <;> cases hh
  | conditional hkey => cases hkey <;> cases hh
  | _ => cases hh

namespace Line

variable {code line : Text}

/-- The items of the membership tests in a piece of code, as the two forms find them one after the
other. -/
def testedItems (t : Text) : List Text :=
  (Membership.absent.form.pattern.found t ++
    Membership.present.form.pattern.found (Membership.absent.form.recastAll t)).map
      fun m => m.get .item

/-- Membership tests keep brackets well nested if their items are, and only then. -/
theorem nested_memberships_iff (t : Text) :
    Nested (memberships t) ↔ Nested t ∧ ∀ item ∈ testedItems t, Nested item := by
  have hstages : memberships t =
      Membership.present.form.recastAll (Membership.absent.form.recastAll t) := rfl
  rw [testedItems, List.forall_mem_map, List.forall_mem_append, hstages, Nested,
    nest_membership_iff, nest_membership_iff, and_assoc]
  rfl

/-- White space is nothing that the inline stage recasts. -/
theorem inline_of_gap (ht : Gap t) : inline t = t := by
  have hpart {p x q : Text} (h : p ++ (x ++ q) = t) : ink x = [] :=
    Gap.ink_eq fun c hc => ht c (h ▸ List.mem_append_right p (List.mem_append_left q hc))
  refine inline_preserves (· = t) ?_ ?_ rfl
  · intro i p x y q hxy h
    exact absurd (hpart h) hxy.ink_ne_nil
  · intro m p x y q hxy h
    exact absurd (hpart h) hxy.core_ne_nil.1

/-- What the inline stage leaves well nested, of code without double quotes. -/
theorem nested_inline_iff (hquotes : '"' ∉ t) (hnested : Nested t) :
    Nested (inline t) ↔
      (∀ step ∈ rangeSteps t, Nested step) ∧
        (isCondition (expressions t).trimStart →
          ∀ item ∈ testedItems (expressions t), Nested item) := by
  rw [← nested_growing_iff hnested, ← expressions_of_not_mem hquotes, inline]
  by_cases hcondition : isCondition (expressions t).trimStart
  · rw [if_pos (by simp [hcondition, isLoop_of_isCondition hcondition]), nested_memberships_iff]
    simp [hcondition]
  · rw [if_neg (by simp [hcondition])]
    simp [hcondition]

/-- The last stage puts a semicolon in the place of white space, and that is no bracket. -/
theorem skeleton_convertCode (code : Text) :
    skeleton (convertCode code) = skeleton (inline (recast code)) := by
  rcases convertCode_cases code with ⟨h, t, hh, -, heq⟩ | ⟨hh, heq⟩ | ⟨hh, kept, g, hg, hkept, heq⟩
  · rw [heq, recast, hh]
    rfl
  · rw [heq, recast, hh]
    rfl
  · have hrecast : recast code = code := by rw [recast, hh]; rfl
    rw [heq, hrecast, hkept, skeleton_append, skeleton_append, hg.skeleton_eq]
    rfl

/-- A line without a comment mark is code. -/
theorem split_of_not_infix (hmark : ¬ ("//" : Text) <:+: line) :
    Comment.split line = (line, []) := by
  rcases Comment.split_cases line with h | ⟨g, r, -, hcomment, -⟩
  · exact h
  · have hline := Comment.split_append line
    rw [hcomment] at hline
    exact absurd ⟨(Comment.split line).1 ++ g, r, by simpa using hline⟩ hmark

/-- A line without a comment mark has the brackets that the inline stage leaves. -/
theorem skeleton_convert (hmark : ¬ ("//" : Text) <:+: line) :
    skeleton (convert line) = skeleton (inline (recast line)) := by
  rw [convert_eq, split_of_not_infix hmark]
  split
  · rename_i hblank
    have hgap : Gap line := isBlank_iff_gap.1 hblank
    have hrecast : recast line = line := by rw [recast, header?_of_gap hgap]; rfl
    rw [hrecast, inline_of_gap hgap]
  · rw [List.append_nil, skeleton_convertCode]

/-- Code without a header but one of a binding keeps its brackets, and it gets no double quotes. -/
theorem recast_spec (hquotes : '"' ∉ code)
    (hhead : ∀ h ∈ (header? code).map Prod.fst, h.construct = .binding) :
    skeleton (recast code) = skeleton code ∧ '"' ∉ recast code := by
  rw [recast]
  cases hh : header? code with
  | none => exact ⟨rfl, hquotes⟩
  | some found =>
    have hbinding : found.1.construct = .binding := hhead _ (by rw [hh]; rfl)
    have hturns := turns_of_header? hh
    exact ⟨hturns.skeleton_eq hbinding, hturns.quote_not_mem hbinding hquotes⟩

/-- When a line keeps its brackets well nested, if it has no double quotes, no comment mark and no
header of a function, a record or a block: if those of every step of a range and, in conditions and
bindings, of every item of a membership test are well nested on their own. -/
theorem nested_convert_iff (hquotes : '"' ∉ line) (hmark : ¬ ("//" : Text) <:+: line)
    (hnested : Nested line) (hhead : ∀ h ∈ head? line, h.construct = .binding) :
    Nested (convert line) ↔
      (∀ step ∈ rangeSteps (recast line), Nested step) ∧
        (isCondition (expressions (recast line)).trimStart →
          ∀ item ∈ testedItems (expressions (recast line)), Nested item) := by
  rw [head?, split_of_not_infix hmark] at hhead
  obtain ⟨hbrackets, hquotes⟩ := recast_spec hquotes hhead
  rw [nested_congr (skeleton_convert hmark)]
  exact nested_inline_iff hquotes ((nested_congr hbrackets).2 hnested)

/-- Both the step and the item may hold brackets. -/
theorem nested_convert_step_and_item :
    ('"' ∉ "x = f(range(0, n, s[k]), a[0] in b)".toList ∧
      ¬ ("//" : Text) <:+: "x = f(range(0, n, s[k]), a[0] in b)" ∧
      Nested "x = f(range(0, n, s[k]), a[0] in b)" ∧
      ∀ h ∈ head? "x = f(range(0, n, s[k]), a[0] in b)", h.construct = .binding) ∧
    Nested (convert "x = f(range(0, n, s[k]), a[0] in b)") := by
  have hquotes : '"' ∉ "x = f(range(0, n, s[k]), a[0] in b)".toList := by decide
  have hmark : ¬ ("//" : Text) <:+: "x = f(range(0, n, s[k]), a[0] in b)" := by
    decide +kernel
  have hnested : Nested "x = f(range(0, n, s[k]), a[0] in b)" := by decide +kernel
  have hhead : ∀ h ∈ head? "x = f(range(0, n, s[k]), a[0] in b)", h.construct = .binding := by
    decide +kernel
  refine ⟨⟨hquotes, hmark, hnested, hhead⟩, (nested_convert_iff hquotes hmark hnested hhead).2 ?_⟩
  decide +kernel

/-- Not every line keeps its brackets well nested: an item takes the bracket in front of it along,
and the path to a collection the one behind. -/
theorem not_nested_convert :
    ¬ ∀ line : Text, '"' ∉ line → '\'' ∉ line → '\\' ∉ line → ¬ ("//" : Text) <:+: line →
      Nested line → (∀ h : Header, h.construct ≠ .binding → h.form.recast? line = none) →
      Nested (convert line) := by
  intro h
  have hother : ∀ h ∈ Header.all, h.construct ≠ .binding →
      h.form.recast? "x = [a in b]" = none := by
    decide +kernel
  have hlist := h "x = [a in b]" (by decide) (by decide) (by decide) (by decide +kernel)
    (by decide +kernel) fun h => hother h h.mem_all
  revert hlist
  decide +kernel

end Line

end Oxidize
