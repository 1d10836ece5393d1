import Oxidize.Proofs.Comment.Marks
import Oxidize.Proofs.Line.Characters

/-!
# String literals in converted code

Inline forms keep the quotes of a text in their order, or add two of them side by side, which no
scan can tell. So the conversion of code that ends outside of literals ends outside of literals
(`Line.after_convertCode`).
-/

namespace Oxidize

open Pattern Text

open Comment

variable {s : Quoting} {x y : Text}

theorem Inline.Turns.marks_eq {i : Inline} (h : i.Turns x y) (hi : i ≠ .printValue) :
    marks y = marks x := by
  have gaps : ∀ {g}, Gap g → marks g = [] := marks_of_gap
  cases h with
  | printValue => exact absurd rfl hi
  | _ => simp +decide [marks_cons, *]

theorem Inline.Turns.after_eq {i : Inline} (h : i.Turns x y) (hs : Settled s) (hx : '\\' ∉ x) :
    s.after isQuote y = s.after isQuote x := by
  have hy : '\\' ∉ y := h.not_mem (by simp [IsForeign]) hx
  rw [hs.after_eq_after_marks hx, hs.after_eq_after_marks hy]
  by_cases hi : i = .printValue
  · -- The two quotes of the new format text stand side by side in the marks.
    subst hi
    cases h
    simp +decide [marks_cons, hs.after_two_quotes]
  · rw [h.marks_eq hi]

theorem Membership.Turns.after_eq {m : Membership} (h : m.Turns x y) (hs : Settled s)
    (hx : '\\' ∉ x) : s.after isQuote y = s.after isQuote x := by
  have hy : '\\' ∉ y := h.not_mem (by simp [IsForeign]) hx
  rw [hs.after_eq_after_marks hx, hs.after_eq_after_marks hy]
  cases h with
  | absent _ hs hs' hcollection | present _ hs hs' hcollection =>
    have := marks_of_forall ⟨rfl, rfl⟩ hcollection.2
    have := marks_of_gap hs.gap
    have := marks_of_gap hs'.gap
    simp +decide [marks_cons, *]

/-- Only the head of a record drops quotes, those in its parentheses. It keeps none. -/
theorem Header.Turns.marks_eq {h : Header} (hxy : h.Turns x y) :
    marks y = marks x ∨ marks y = [] := by
  have gaps : ∀ {g}, Gap g → marks g = [] := marks_of_gap
  have spaces : ∀ {g}, Run isSpace g → marks g = [] := fun h => marks_of_gap h.gap
  cases hxy with
  | functionTo _ hkey | function _ hkey =>
    rcases hkey with rfl | rfl <;> simp +decide [marks_cons, *]
  | record hind _ hname =>
    refine .inr ?_
    have := marks_of_forall ⟨rfl, rfl⟩ hname.2
    simp +decide [marks_cons, *]
  | overRange hi _ _ _ _ _ hcall =>
    -- The range of the loop is recast as an inline range is.
    have := hcall.marks_eq (by rintro rfl; cases h <;> cases hi)
    simp +decide [marks_cons, *]
  | conditional hkey => cases hkey <;> simp +decide [marks_cons, *]
  | _ => simp +decide [marks_cons, *]

theorem Header.Turns.after_code {h : Header} (hxy : h.Turns x y) (hx : '\\' ∉ x)
    (hcode : Quoting.after isQuote .code x = .code) : Quoting.after isQuote .code y = .code := by
  have hy : '\\' ∉ y := hxy.not_mem (by simp [IsForeign]) hx
  rw [settled_code.after_eq_after_marks hx] at hcode
  rw [settled_code.after_eq_after_marks hy]
  rcases hxy.marks_eq with hmarks | hmarks
  · rwa [hmarks]
  · rw [hmarks, Quoting.after_nil]

namespace Line

variable {t code : Text}

theorem after_inline (ht : '\\' ∉ t) :
    Quoting.after isQuote .code (inline t) = Quoting.after isQuote .code t := by
  have exchange {p x y q : Text}
      (hxy : ∀ s, Settled s → s.after isQuote y = s.after isQuote x)
      (hp : '\\' ∉ p) :
      Quoting.after isQuote .code (p ++ (y ++ q)) =
        Quoting.after isQuote .code (p ++ (x ++ q)) := by
    simp only [Quoting.after_append]
    rw [hxy _ (settled_code.after hp)]
  refine (inline_preserves (fun u => '\\' ∉ u ∧
    Quoting.after isQuote .code u = Quoting.after isQuote .code t) ?_ ?_ ⟨ht, rfl⟩).2
  · rintro i p x y q hxy ⟨hmem, h⟩
    simp only [List.mem_append, not_or] at hmem ⊢
    refine ⟨⟨hmem.1, hxy.not_mem (by simp [IsForeign]) hmem.2.1, hmem.2.2⟩, ?_⟩
    rw [exchange (fun s hs => hxy.after_eq hs hmem.2.1) hmem.1, h]
  · rintro m p x y q hxy ⟨hmem, h⟩
    simp only [List.mem_append, not_or] at hmem ⊢
    refine ⟨⟨hmem.1, hxy.not_mem (by simp [IsForeign]) hmem.2.1, hmem.2.2⟩, ?_⟩
    rw [exchange (fun s hs => hxy.after_eq hs hmem.2.1) hmem.1, h]

/-- Code that ends outside of literals does so when it is converted. -/
theorem after_convertCode (hslash : '\\' ∉ code)
    (hcode : Quoting.after isQuote .code code = .code) :
    Quoting.after isQuote .code (convertCode code) = .code := by
  rcases convertCode_cases code with ⟨h, t, -, hturns, heq⟩ | ⟨-, heq⟩ |
    ⟨-, kept, g, hg, hkept, heq⟩
  · rw [heq, after_inline (hturns.not_mem (by simp [IsForeign]) hslash)]
    exact hturns.after_code hslash hcode
  · rw [heq, after_inline hslash, hcode]
  · have hmem : '\\' ∉ inline code := not_mem_inline (by simp [IsForeign]) hslash
    have hinline := after_inline hslash
    rw [hkept, List.mem_append, not_or] at hmem
    have hs : Settled (Quoting.after isQuote .code kept) := settled_code.after hmem.1
    rw [hkept, Quoting.after_append, hs.after_gap hg, hcode] at hinline
    rw [heq, Quoting.after_append, hinline]
    rfl

end Line

end Oxidize
