import Oxidize.Layout.Depth
import Oxidize.Proofs.Line.Back
import Oxidize.Proofs.Line.Front
import Oxidize.Proofs.Line.Quotes

/-!
# Blocks of converted lines

The layout reads the blocks of a script off its converted lines: a line whose code ends in an
opening brace opens one, a line that begins with a closing brace closes one. For code with ordinary
braces (`Tame`) these are the lines that had the head of a function, a record or a block, and those
that began with a closing brace or were the branch for all other cases.
-/

namespace Oxidize.Line

open Text

/-- Code without slashes and backslashes and with no brace where a form could uncover it. -/
structure Tame (code : Text) : Prop where
  slash : '/' ∉ code
  backslash : '\\' ∉ code
  getLast?_trim_ne : code.trim.getLast? ≠ some '{'
  not_follows_closing : ¬Follows '{' ')' code
  not_follows_opening : ¬Follows '(' '}' code

theorem closes_iff (t : Text) : Layout.closes t ↔ t.head? = some '}' := by
  cases t with
  | nil => simp [Layout.closes, startsWith]
  | cons c r =>
    rw [Layout.closes, startsWith, List.isPrefixOf_iff_prefix]
    simpa using eq_comm

theorem opens_iff (t : Text) : Layout.opens t ↔ (Comment.split t).1.getLast? = some '{' := by
  simp [Layout.opens]

/-- The lines that open and the lines that close a block. -/
theorem opens_iff_and_closes_iff (line : Text) (h : Tame (Comment.split line).1) :
    (Layout.opens (convert line).trim ↔
      (head? line).any fun h => h.construct ≠ .binding) ∧
    (Layout.closes (convert line).trim ↔
      (Comment.split line).1.trimStart.head? = some '}' ∨ head? line = some .otherwise) := by
  rw [opens_iff, closes_iff, convert_eq, head?_trimStart, head?]
  split
  · -- A line without code stays as it is: its code is white space and its comment the same.
    rename_i hblank
    have hgap := isBlank_iff_gap.1 hblank
    have hlast := Comment.getLast?_split_trim h.backslash h.slash id id
    have hhead := Comment.head?_trim_append (by decide : '}' ≠ '/') (Comment.split line).1 line
    rw [Comment.split_append] at hlast hhead
    rw [hlast, hhead, header?_of_gap hgap, hgap.ink_eq]
    simp
  · rename_i hblank
    have hnil : (Comment.split line).1 = [] → convertCode (Comment.split line).1 = [] := by
      intro hcode
      simp [hcode, isBlank] at hblank
    have hslash := not_mem_convertCode (by simp [IsForeign]) h.slash
    rw [Comment.getLast?_split_trim h.backslash hslash (after_convertCode h.backslash) hnil,
      Comment.head?_trim_append (by decide)]
    have hlast : (ink (Comment.split line).1).getLast? ≠ some '{' := by
      rw [← getLast?_trim]
      exact h.getLast?_trim_ne
    have hclosing := h.not_follows_closing
    have hopening := h.not_follows_opening
    rw [follows_iff_infix_ink rfl rfl] at hclosing hopening
    exact ⟨getLast?_ink_convertCode hlast hclosing, head?_ink_convertCode hopening⟩

/-- A last branch with a comment that ends in a brace. -/
theorem opens_iff_and_closes_iff_otherwise :
    Tame (Comment.split "  else: // so \x7b").1 ∧
      Layout.opens (convert "  else: // so \x7b").trim ∧
      Layout.closes (convert "  else: // so \x7b").trim := by
  have htame : Tame (Comment.split "  else: // so \x7b").1 := by
    refine ⟨by decide +kernel, by decide +kernel, by decide +kernel, ?_, ?_⟩
    · rw [follows_iff_infix_ink rfl rfl]
      decide +kernel
    · rw [follows_iff_infix_ink rfl rfl]
      decide +kernel
  have h := opens_iff_and_closes_iff "  else: // so \x7b" htame
  exact ⟨htame, h.1.2 (by decide +kernel), h.2.2 (.inr (by decide +kernel))⟩

end Oxidize.Line
