import Mathlib.Data.List.Induction
import Oxidize.Proofs.Line.Stages
import Oxidize.Proofs.Text.Ink

/-!
# How converted code ends

The code of a line ends in an opening brace exactly if a header of a function, a record or a block
put it there. No inline form ends in a brace, so none takes the brace of a header away, and none
uncovers one unless a brace stood before closing parentheses. That is why the invariant of code
without such a header is about the `core` of the text, its ink without closing parentheses.
-/

namespace Oxidize

open Pattern Text

variable {x y : Text}

/-! ### Single replacements -/

theorem Inline.Turns.ink_ne_nil {i : Inline} (h : i.Turns x y) : ink x ≠ [] := by
  cases h <;> simp +decide [ink_cons]

theorem Inline.Turns.getLast?_ink_ne {i : Inline} (h : i.Turns x y) :
    (ink x).getLast? ≠ some '{' := by
  cases h <;> simp +decide [ink_cons, List.getLast?_cons]
  split <;> simp [List.getLast?_cons]

theorem Inline.Turns.core_ne_nil {i : Inline} (h : i.Turns x y) : core x ≠ [] ∧ core y ≠ [] := by
  cases h <;> simp +decide [core_cons]

theorem Inline.Turns.getLast?_core_ne {i : Inline} (h : i.Turns x y)
    (hx : (core x).getLast? ≠ some '{') : (core y).getLast? ≠ some '{' := by
  cases h with
  | printFormat | printValue =>
    simp +decide [core_cons, List.getLast?_cons] at hx ⊢
    grind
  | printInterpolated | length | interpolated => simp +decide [core_cons, List.getLast?_cons]
  | rangeStep _ _ _ _ _ _ _ _ hg | rangeBetween _ _ _ _ _ hg | rangeTo _ _ hg =>
    simp +decide [core_cons, List.getLast?_cons, Gap.core_eq hg] at hx ⊢
    grind

theorem Membership.Turns.core_ne_nil {m : Membership} (h : m.Turns x y) :
    ink x ≠ [] ∧ core x ≠ [] ∧ core y ≠ [] := by
  cases h <;> simp +decide [ink_cons, core_cons]

theorem Membership.Turns.getLast?_ink_ne {m : Membership} (h : m.Turns x y) :
    (ink x).getLast? ≠ some '{' := by
  cases h with
  | absent _ _ hs hcollection | present _ _ hs hcollection =>
    have := hcollection.getLast?_ink_ne (c := '{') rfl
    simp +decide [ink_cons, List.getLast?_cons, Gap.ink_eq hs.gap]
    grind

theorem Membership.Turns.getLast?_core_ne {m : Membership} (h : m.Turns x y) :
    (core y).getLast? ≠ some '{' := by
  cases h with
  | absent hitem | present hitem =>
    have := hitem.getLast?_core_ne (c := '{') rfl
    simp +decide [core_cons, List.getLast?_cons]
    grind

theorem Header.Turns.getLast?_ink {h : Header} (hxy : h.Turns x y) (hh : h.construct ≠ .binding) :
    (ink y).getLast? = some '{' := by
  cases hxy with
  | openBinding | binding => exact absurd rfl hh
  | _ => simp +decide [ink_cons, List.getLast?_cons]

theorem Header.Turns.getLast?_core_ne {h : Header} (hxy : h.Turns x y) (hh : h.construct = .binding)
    (hx : (ink x).getLast? ≠ some '{') : (core y).getLast? ≠ some '{' := by
  cases hxy with
  | openBinding _ _ _ _ _ hc hg =>
    rcases hc with rfl | rfl | rfl <;>
      simp +decide [ink_cons, core_cons, List.getLast?_cons, Gap.ink_eq hg] at hx ⊢
  | binding =>
    simp +decide [core_cons, List.getLast?_cons]
    split <;> simp [List.getLast?_cons]
  | overRange hi => cases h <;> cases hi <;> cases hh
  | conditional hkey => cases hkey <;> cases hh
  | _ => cases hh

/-! ### Whole lines -/

namespace Line

variable {t code : Text}

theorem getLast?_ink_inline (ht : (ink t).getLast? = some '{') :
    (ink (inline t)).getLast? = some '{' := by
  refine inline_preserves (fun u => (ink u).getLast? = some '{') ?_ ?_ ht
  · intro i p x y q hxy h
    simp only [ink_append] at h ⊢
    exact getLast?_exchange hxy.ink_ne_nil hxy.getLast?_ink_ne h
  · intro m p x y q hxy h
    simp only [ink_append] at h ⊢
    exact getLast?_exchange hxy.core_ne_nil.1 hxy.getLast?_ink_ne h

theorem getLast?_core_inline_ne (ht : (core t).getLast? ≠ some '{') :
    (core (inline t)).getLast? ≠ some '{' := by
  refine inline_preserves (fun u => (core u).getLast? ≠ some '{') ?_ ?_ ht
  · intro i p x y q hxy h
    simp only [core_append] at h ⊢
    exact getLast?_exchange_ne hxy.core_ne_nil.1 hxy.core_ne_nil.2 hxy.getLast?_core_ne h
  · intro m p x y q hxy h
    simp only [core_append] at h ⊢
    exact getLast?_exchange_ne hxy.core_ne_nil.2.1 hxy.core_ne_nil.2.2
      (fun _ => hxy.getLast?_core_ne) h

/-- What ends in a brace ends in a brace without its closing parentheses. -/
theorem getLast?_ink_ne_of_core (ht : (core t).getLast? ≠ some '{') :
    (ink t).getLast? ≠ some '{' := by
  intro h
  obtain ⟨u, hu⟩ := List.getLast?_eq_some_iff.1 h
  exact ht (by simp [core, hu])

/-- If no brace ends the text and none stands before a closing parenthesis, then none stands before
the closing parentheses at its end. -/
theorem getLast?_core_ne (hlast : (ink t).getLast? ≠ some '{') (hpair : ¬['{', ')'] <:+: ink t) :
    (core t).getLast? ≠ some '{' := by
  have key (u : Text) (hlast : u.getLast? ≠ some '{') (hpair : ¬['{', ')'] <:+: u) :
      (u.filter fun c => c ≠ ')').getLast? ≠ some '{' := by
    -- From the end on, closing parentheses are left out until another character ends the text.
    induction u using List.reverseRecOn with
    | nil => simp
    | append_singleton v c ih =>
      by_cases hc : c = ')'
      · have hv : v.getLast? ≠ some '{' := by
          intro h
          obtain ⟨w, rfl⟩ := List.getLast?_eq_some_iff.1 h
          exact hpair ⟨w, [], by simp [hc]⟩
        simpa [hc] using ih hv fun h => hpair (h.trans (List.prefix_append v [c]).isInfix)
      · simpa [hc] using hlast
  exact key (ink t) hlast hpair

/-- The code of a line ends in an opening brace exactly if a header put it there. -/
theorem getLast?_ink_convertCode (hlast : (ink code).getLast? ≠ some '{')
    (hpair : ¬['{', ')'] <:+: ink code) :
    (ink (convertCode code)).getLast? = some '{' ↔
      ((header? code).map Prod.fst).any fun h => h.construct ≠ .binding := by
  rcases convertCode_cases code with ⟨h, t, hh, hturns, heq⟩ | ⟨hh, heq⟩ |
    ⟨hh, kept, g, -, -, heq⟩
  · rw [hh, heq]
    by_cases hbinding : h.construct = .binding
    · have := getLast?_ink_ne_of_core
        (getLast?_core_inline_ne (hturns.getLast?_core_ne hbinding hlast))
      simpa [hbinding] using this
    · simpa [hbinding] using getLast?_ink_inline (hturns.getLast?_ink hbinding)
  · rw [hh, heq]
    have := getLast?_ink_ne_of_core (getLast?_core_inline_ne (getLast?_core_ne hlast hpair))
    simpa using this
  · simp +decide [hh, heq, ink_cons]

end Line

end Oxidize
