import Oxidize.Proofs.Comment.Split
import Oxidize.Proofs.Line.Stages

/-!
# Characters that no conversion writes

No template holds a line feed, a slash or a backslash. So a line stays one line, code without a
slash gets no comment mark, and code without a backslash no escape.
-/

namespace Oxidize

variable {c : Char} {x y : Text}

/-- The characters that separate lines, begin comments and escape quotes. -/
def IsForeign (c : Char) : Prop :=
  c = '\n' ∨ c = '/' ∨ c = '\\'

theorem Inline.Turns.not_mem {i : Inline} (h : i.Turns x y) (hc : IsForeign c) (hx : c ∉ x) :
    c ∉ y := by
  rcases hc with rfl | rfl | rfl <;> cases h <;> simp_all

theorem Membership.Turns.not_mem {m : Membership} (h : m.Turns x y) (hc : IsForeign c)
    (hx : c ∉ x) : c ∉ y := by
  rcases hc with rfl | rfl | rfl <;> cases h <;> simp_all

theorem Header.Turns.not_mem {h : Header} (hxy : h.Turns x y) (hc : IsForeign c) (hx : c ∉ x) :
    c ∉ y := by
  cases hxy with
  | overRange _ _ _ _ _ _ hcall =>
    have := hcall.not_mem hc
    rcases hc with rfl | rfl | rfl <;> simp_all
  | conditional hkey => rcases hc with rfl | rfl | rfl <;> cases hkey <;> simp_all
  | _ => rcases hc with rfl | rfl | rfl <;> simp_all

namespace Line

variable {t code line : Text}

theorem not_mem_inline (hc : IsForeign c) (ht : c ∉ t) : c ∉ inline t := by
  refine inline_preserves (fun u => c ∉ u) ?_ ?_ ht
  · intro i p x y q hxy h
    simp only [List.mem_append, not_or] at h ⊢
    exact ⟨h.1, hxy.not_mem hc h.2.1, h.2.2⟩
  · intro m p x y q hxy h
    simp only [List.mem_append, not_or] at h ⊢
    exact ⟨h.1, hxy.not_mem hc h.2.1, h.2.2⟩

theorem not_mem_convertCode (hc : IsForeign c) (hcode : c ∉ code) : c ∉ convertCode code := by
  rcases convertCode_cases code with ⟨h, t, -, hturns, heq⟩ | ⟨-, heq⟩ |
    ⟨-, kept, g, -, hkept, heq⟩
  · rw [heq]
    exact not_mem_inline hc (hturns.not_mem hc hcode)
  · rw [heq]
    exact not_mem_inline hc hcode
  · have hinline := not_mem_inline hc hcode
    rw [hkept, List.mem_append, not_or] at hinline
    rw [heq]
    rcases hc with rfl | rfl | rfl <;> simp [hinline.1]

/-- A converted line is one line. -/
theorem newline_not_mem_convert (hline : '\n' ∉ line) : '\n' ∉ convert line := by
  rw [convert_eq]
  split
  · exact hline
  · rw [← Comment.split_append line, List.mem_append, not_or] at hline
    rw [List.mem_append, not_or]
    exact ⟨not_mem_convertCode (.inl rfl) hline.1, hline.2⟩

end Line

end Oxidize
