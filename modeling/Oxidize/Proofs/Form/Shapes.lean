import Oxidize.Form.Basic
import Oxidize.Proofs.Pattern.Reads

/-!
# The shapes that forms share

What sequences read that begin with one of the shared patterns: white space, indents, the colon at
the end of a line, operands. With these equations the shape of a form is read off its pattern, one
member after the other.
-/

namespace Oxidize

open Pattern Text

/-- An operand of a range. -/
def IsOperand (t : Text) : Prop :=
  operand.Reads t []

namespace Pattern

variable {ps : List (Pattern Field)} {u : Text} {fs : List (Field × Text)}

theorem not_mem_of_noneOf {cs t : Text} {c : Char} (h : ∀ d ∈ t, noneOf cs d) (hc : c ∈ cs) :
    c ∉ t :=
  fun hmem => by simpa [noneOf, hc] using h c hmem

theorem newline_not_mem_of_inLine {t : Text} (h : ∀ d ∈ t, inLine d) : '\n' ∉ t :=
  fun hmem => by simpa [inLine] using h '\n' hmem

theorem reads_sequence_gap :
    Reads (sequence (gap :: ps)) u fs ↔ ∃ g w, Gap g ∧ u = g ++ w ∧ Reads (sequence ps) w fs := by
  rw [reads_sequence_plain rfl]
  constructor
  · rintro ⟨g, w, ⟨hg, -⟩, h⟩
    exact ⟨g, w, hg, h⟩
  · rintro ⟨g, w, hg, h⟩
    exact ⟨g, w, ⟨hg, rfl⟩, h⟩

theorem reads_sequence_space :
    Reads (sequence (space :: ps)) u fs ↔
      ∃ s w, Run isSpace s ∧ u = s ++ w ∧ Reads (sequence ps) w fs := by
  rw [reads_sequence_plain rfl]
  simp only [space, reads_chars, and_true]

theorem reads_sequence_oneOrMore {g : Greed} {set : Char → Bool} :
    Reads (sequence (oneOrMore g set :: ps)) u fs ↔
      ∃ s w, Run set s ∧ u = s ++ w ∧ Reads (sequence ps) w fs := by
  rw [reads_sequence_plain rfl]
  simp only [reads_oneOrMore, and_true]

theorem reads_sequence_indent :
    Reads (sequence (indent :: ps)) u fs ↔
      ∃ ind w gs, Gap ind ∧ u = ind ++ w ∧ fs = (.indent, ind) :: gs ∧
        Reads (sequence ps) w gs := by
  rw [indent, reads_sequence_sequence, List.cons_append, List.cons_append, List.nil_append,
    reads_sequence_plain rfl]
  simp only [reads_sequence_field (p := gap) rfl]
  constructor
  · rintro ⟨_, _, ⟨rfl, -⟩, rfl, ind, w, gs, ⟨hind, -⟩, rfl, rfl, h⟩
    exact ⟨ind, w, gs, hind, rfl, rfl, h⟩
  · rintro ⟨ind, w, gs, hind, rfl, rfl, h⟩
    exact ⟨[], ind ++ w, ⟨rfl, rfl⟩, rfl, ind, w, gs, ⟨hind, rfl⟩, rfl, rfl, h⟩

theorem reads_sequence_word {label : Field} :
    Reads (sequence (field label word :: ps)) u fs ↔
      ∃ v w gs, Run isWord v ∧ u = v ++ w ∧ fs = (label, v) :: gs ∧ Reads (sequence ps) w gs := by
  rw [reads_sequence_field rfl]
  simp only [word, reads_chars, and_true]

theorem reads_sequence_stop : Reads (sequence [stop]) u fs ↔ u = [] ∧ fs = [] := by
  rw [reads_sequence_plain rfl]
  constructor
  · rintro ⟨_, _, ⟨rfl, -⟩, rfl, rfl, rfl⟩
    exact ⟨rfl, rfl⟩
  · rintro ⟨rfl, rfl⟩
    exact ⟨[], [], ⟨rfl, rfl⟩, rfl, rfl, rfl⟩

theorem reads_sequence_colonEnd :
    Reads (sequence [colonEnd]) u fs ↔
      ∃ g g', Gap g ∧ Gap g' ∧ u = g ++ ":" ++ g' ∧ fs = [] := by
  rw [colonEnd, reads_sequence_sequence]
  simp only [List.cons_append, List.nil_append, reads_sequence_gap, reads_sequence_text,
    reads_sequence_stop]
  constructor
  · rintro ⟨g, _, hg, rfl, _, rfl, g', _, hg', rfl, rfl, rfl⟩
    exact ⟨g, g', hg, hg', by simp, rfl⟩
  · rintro ⟨g, g', hg, hg', rfl, rfl⟩
    exact ⟨g, ":" ++ g', hg, by simp, g', rfl, g', [], hg', by simp, rfl, rfl⟩

/-- An operand with its mark takes the white space around the operand. -/
theorem reads_sequence_argument {label : Field} {mark : Text} :
    Reads (sequence (argument label mark :: ps)) u fs ↔
      ∃ g v g' w gs, Gap g ∧ IsOperand v ∧ Gap g' ∧ u = g ++ v ++ g' ++ mark ++ w ∧
        fs = (label, v) :: gs ∧ Reads (sequence ps) w gs := by
  have hsequence : Reads (sequence (argument label mark :: ps)) u fs ↔
      Reads (sequence ([many .greedy isSpace, field label operand, gap, text mark] ++ ps)) u fs :=
    reads_sequence_sequence
  rw [hsequence]
  simp only [List.cons_append, List.nil_append, reads_sequence_plain (p := many _ _) rfl,
    reads_sequence_field (p := operand) rfl, reads_sequence_gap, reads_sequence_text]
  constructor
  · rintro ⟨g, _, ⟨hg, -⟩, rfl, v, _, gs, hv, rfl, rfl, g', _, hg', rfl, w, rfl, h⟩
    exact ⟨g, v, g', w, gs, hg, hv, hg', by simp, rfl, h⟩
  · rintro ⟨g, v, g', w, gs, hg, hv, hg', rfl, rfl, h⟩
    exact ⟨g, v ++ g' ++ mark ++ w, ⟨hg, rfl⟩, by simp, v, g' ++ mark ++ w, gs, hv, by simp, rfl,
      g', mark ++ w, hg', by simp, w, rfl, h⟩

end Pattern

end Oxidize
