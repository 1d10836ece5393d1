import Oxidize.Form.Ending
import Oxidize.Proofs.Form.Recasts
import Oxidize.Proofs.Form.Shapes

/-!
# Endings as rules on texts

What an ending does to a line does not depend on the shape of its statement: the white space at the
end gives way to a semicolon (`Ending.exists_of_recasts`).
-/

namespace Oxidize

open Pattern Text

namespace Ending

theorem isWhole_pattern (e : Ending) : e.form.pattern.isWhole := by
  cases e <;> rfl

theorem isPlain_statement (e : Ending) : e.statement.isPlain := by
  cases e <;> rfl

/-- An ending puts a semicolon in the place of the white space at the end of a line. -/
theorem exists_of_recasts {e : Ending} {x y : Text} (h : e.form.Recasts x y) :
    ∃ kept g : Text, Gap g ∧ x = kept ++ g ∧ y = kept ++ ";" := by
  obtain ⟨⟨stop, fs⟩, hm, rfl⟩ := h
  simp only [form, reads_sequence_indent, reads_sequence_field e.isPlain_statement,
    reads_sequence_gap, reads_sequence_stop] at hm
  obtain ⟨ind, _, _, -, rfl, rfl, statement, _, _, -, rfl, rfl, g, _, hg, rfl, rfl, rfl⟩ := hm
  exact ⟨ind ++ statement, g, hg, by simp, by simp [Form.expand, form, Piece.expand]⟩

end Ending

end Oxidize
