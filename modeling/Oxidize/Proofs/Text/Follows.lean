import Oxidize.Proofs.Text.Ink

/-!
# Characters that follow each other

`Follows c d t` says that somewhere in `t` the character `d` comes after `c` with white space
between them at most. In the ink of the text the two stand side by side.
-/

namespace Oxidize.Text

variable {c d : Char} {t w a b : Text}

/-- Somewhere `d` comes after `c`, with white space between them at most. -/
def Follows (c d : Char) (t : Text) : Prop :=
  ∃ a g b, Gap g ∧ t = a ++ c :: (g ++ d :: b)

theorem follows_iff_infix_ink (hc : isSpace c = false) (hd : isSpace d = false) :
    Follows c d t ↔ [c, d] <:+: ink t := by
  constructor
  · rintro ⟨a, g, b, hg, rfl⟩
    exact ⟨ink a, ink b, by simp [ink_cons, hc, hd, hg.ink_eq]⟩
  · rintro ⟨a, b, h⟩
    rw [List.append_assoc, eq_comm, ink, List.filter_eq_append_iff] at h
    obtain ⟨t₁, t₂, rfl, -, h⟩ := h
    rw [List.cons_append, List.filter_eq_cons_iff] at h
    obtain ⟨g₁, t₃, rfl, -, -, h⟩ := h
    rw [List.cons_append, List.filter_eq_cons_iff] at h
    obtain ⟨g₂, t₄, rfl, hg₂, -, -⟩ := h
    exact ⟨t₁ ++ g₁, g₂, t₄, fun e he => by simpa using hg₂ e he, by simp⟩

/-! ### Words in texts -/

theorem includes_iff : includes t w ↔ w <:+: t := by
  induction t with
  | nil => simp [includes]
  | cons c t ih =>
    rw [includes, Bool.or_eq_true, ih, List.isPrefixOf_iff_prefix, List.infix_cons_iff]

/-- A text is cut in one way only at the first of some characters. -/
theorem append_cons_inj {a' b' : Text} (ha : c ∉ a) (ha' : c ∉ a')
    (h : a ++ c :: b = a' ++ c :: b') : a = a' ∧ b = b' := by
  induction a generalizing a' with
  | nil =>
    cases a' with
    | nil => exact ⟨rfl, (List.cons.inj h).2⟩
    | cons d a' => exact absurd ((List.cons.inj h).1 ▸ List.mem_cons_self) ha'
  | cons d a ih =>
    cases a' with
    | nil => exact absurd ((List.cons.inj h).1 ▸ List.mem_cons_self) ha
    | cons e a' =>
      rw [List.mem_cons, not_or] at ha ha'
      obtain ⟨hd, htail⟩ := List.cons.inj h
      obtain ⟨ha, hb⟩ := ih ha.2 ha'.2 htail
      exact ⟨by rw [hd, ha], hb⟩

/-- A character that a word does not hold separates its occurrences. -/
theorem infix_append_cons (hw : w ≠ []) (hc : c ∉ w) :
    w <:+: a ++ c :: b ↔ w <:+: a ∨ w <:+: b := by
  constructor
  · intro h
    rcases List.infix_append_iff_ne_nil.1 h with h | h | ⟨u, v, -, hv, rfl, -, hstart⟩
    · exact .inl h
    · rcases List.infix_cons_iff.1 h with hstart | h
      · obtain ⟨e, w', rfl⟩ := List.exists_cons_of_ne_nil hw
        rw [List.cons_prefix_cons] at hstart
        exact absurd (hstart.1 ▸ List.mem_cons_self) hc
      · exact .inr h
    · obtain ⟨e, v', rfl⟩ := List.exists_cons_of_ne_nil hv
      rw [List.cons_prefix_cons] at hstart
      exact absurd (List.mem_append_right u (hstart.1 ▸ List.mem_cons_self)) hc
  · rintro (h | h)
    · exact List.infix_append_of_infix_left h
    · exact List.infix_append_of_infix_right (List.infix_cons h)

/-- Behind a text that does not hold the last character of a word, the word does not end. -/
theorem infix_of_infix_append (hc : c ∉ b) (h : w ++ [c] <:+: a ++ b) : w ++ [c] <:+: a := by
  rcases List.infix_append_iff_ne_nil.1 h with h | h | ⟨u, v, -, hv, heq, -, hstart⟩
  · exact h
  · exact absurd (h.subset (by simp)) hc
  · have hlast : some c = some (v.getLast hv) := by
      simpa [List.getLast?_eq_some_getLast hv] using congrArg List.getLast? heq
    have hmem : c ∈ v := Option.some.inj hlast ▸ List.getLast_mem hv
    exact absurd (hstart.subset hmem) hc

/-- Where a text does not hold the first character of a word, the word does not begin. -/
theorem infix_append_iff_of_not_mem (hc : c ∉ a) : c :: w <:+: a ++ b ↔ c :: w <:+: b := by
  induction a with
  | nil => rfl
  | cons d a ih =>
    rw [List.mem_cons, not_or] at hc
    rw [List.cons_append, List.infix_cons_iff, List.cons_prefix_cons, ih hc.2, or_iff_right]
    exact fun h => hc.1 h.1

end Oxidize.Text
