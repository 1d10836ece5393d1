import Oxidize.Proofs.Form.Nesting
import Oxidize.Proofs.Line.Operands

/-!
# Where arguments end

The operand of a range goes on as long as the rest of the pattern asks for more, so that many
beginnings of a text are operands. But only one of them has a mark behind it: outside of
parentheses, pieces of an operand hold no comma and close no parenthesis (`Pieces.append_inj`).
Hence the text of a call tells how many arguments it has and where it ends
(`Arguments.append_inj`), and no call stands for two of the three ranges.
-/

namespace Oxidize

open Pattern Text

variable {u u' v v' x y r r' : Text} {c c' : Char} {n k : Nat}

theorem not_isMark_opening : ¬ IsMark '(' := by
  rintro (h | h) <;> cases h

theorem pieces_of_gap (hu : Gap u) : Pieces u := by
  induction u with
  | nil => exact .nil
  | cons c u ih =>
    obtain ⟨hc, hu⟩ := List.forall_mem_cons.1 hu
    have hne {d : Char} (hd : isSpace d = false) : c ≠ d := by
      rintro rfl
      exact Bool.false_ne_true (hd.symm.trans hc)
    exact .char (hne rfl) (hne rfl) (hne rfl) (ih hu)

/-- Pieces in front of a mark end at the first mark that stands outside of parentheses. -/
theorem Pieces.append_inj (hu : Pieces u) (hu' : Pieces u') (hc : IsMark c) (hc' : IsMark c')
    (h : u ++ c :: v = u' ++ c' :: v') : u = u' ∧ c = c' ∧ v = v' := by
  induction hu generalizing u' with
  | nil =>
    cases hu' with
    | nil => exact ⟨rfl, List.cons.inj h⟩
    | char hcomma _ hclosing =>
      obtain ⟨rfl, -⟩ := List.cons.inj h
      exact absurd hc (not_or.2 ⟨hcomma, hclosing⟩)
    | group =>
      obtain ⟨rfl, -⟩ := List.cons.inj h
      exact absurd hc not_isMark_opening
  | char hcomma hopening hclosing _ ih =>
    cases hu' with
    | nil =>
      obtain ⟨rfl, -⟩ := List.cons.inj h
      exact absurd hc' (not_or.2 ⟨hcomma, hclosing⟩)
    | char _ _ _ hu' =>
      obtain ⟨rfl, hrest⟩ := List.cons.inj h
      obtain ⟨rfl, hmark⟩ := ih hu' hrest
      exact ⟨rfl, hmark⟩
    | group => exact absurd (List.cons.inj h).1 hopening
  | @group w u _ hclosing _ ih =>
    cases hu' with
    | nil =>
      obtain ⟨rfl, -⟩ := List.cons.inj h
      exact absurd hc' not_isMark_opening
    | char _ hopening => exact absurd (List.cons.inj h).1.symm hopening
    | @group w' u' _ hclosing' hu' =>
      -- Both groups end at the first parenthesis that closes.
      have hgroup : w ++ ')' :: (u ++ c :: v) = w' ++ ')' :: (u' ++ c' :: v') := by
        simpa using h
      obtain ⟨rfl, hrest⟩ := append_cons_inj hclosing hclosing' hgroup
      obtain ⟨rfl, hmark⟩ := ih hu' hrest
      exact ⟨rfl, hmark⟩

/-- Arguments with `n` commas between them, up to the parenthesis that closes their call. -/
inductive Arguments : Nat → Text → Prop
  | last {u : Text} (hu : Pieces u) : Arguments 0 (u ++ [')'])
  | cons {n : Nat} {u x : Text} (hu : Pieces u) (hx : Arguments n x) :
      Arguments (n + 1) (u ++ ',' :: x)

/-- A text begins with the arguments of one call at most. -/
theorem Arguments.append_inj (hx : Arguments n x) (hy : Arguments k y) (h : x ++ r = y ++ r') :
    n = k ∧ x = y := by
  induction hx generalizing k y with
  | last hu =>
    cases hy with
    | last hu' =>
      obtain ⟨rfl, -⟩ := hu.append_inj hu' (.inr rfl) (.inr rfl) (by simpa using h)
      exact ⟨rfl, rfl⟩
    | cons hu' =>
      obtain ⟨-, hmark, -⟩ := hu.append_inj hu' (.inr rfl) (.inl rfl) (by simpa using h)
      cases hmark
  | cons hu _ ih =>
    cases hy with
    | last hu' =>
      obtain ⟨-, hmark, -⟩ := hu.append_inj hu' (.inl rfl) (.inr rfl) (by simpa using h)
      cases hmark
    | cons hu' hy =>
      obtain ⟨rfl, -, hrest⟩ := hu.append_inj hu' (.inl rfl) (.inl rfl) (by simpa using h)
      obtain ⟨rfl, rfl⟩ := ih hy hrest
      exact ⟨rfl, rfl⟩

/-! ### The calls of ranges -/

/-- An operand and the white space around it. -/
theorem pieces_padded {g g' : Text} (hg : Gap g) (hu : IsOperand u) (hg' : Gap g') :
    Pieces (g ++ u ++ g') :=
  ((pieces_of_gap hg).append hu.pieces).append (pieces_of_gap hg')

/-- How many commas the range of a loop needs. -/
def Header.commas : Header → Nat
  | rangeStep => 2
  | rangeBetween => 1
  | _ => 0

/-- The call that stands for a range has the commas that the header of its loop needs. -/
theorem Header.exists_arguments {h : Header} {i : Inline} (hi : h.range? = some i)
    (hxy : i.Turns x y) : ∃ t, Arguments h.commas t ∧ x = "range(" ++ t := by
  cases h <;> cases hi <;> cases hxy
  case rangeStep.refl.rangeStep h₁ hlower h₂ h₃ hupper h₄ h₅ hstep h₆ =>
    exact ⟨_, .cons (pieces_padded h₁ hlower h₂) (.cons (pieces_padded h₃ hupper h₄)
      (.last (pieces_padded h₅ hstep h₆))), by simp⟩
  case rangeBetween.refl.rangeBetween h₁ hlower h₂ h₃ hupper h₄ =>
    exact ⟨_, .cons (pieces_padded h₁ hlower h₂) (.last (pieces_padded h₃ hupper h₄)), by simp⟩
  case rangeTo.refl.rangeTo h₁ hupper h₂ =>
    exact ⟨_, .last (pieces_padded h₁ hupper h₂), by simp⟩

end Oxidize
