import Oxidize.Proofs.Line.Stages
import Oxidize.Proofs.Text.Follows

/-!
# How converted code begins

The code of a line begins with a closing brace exactly if it did so before or if it is the branch
for all other cases. An inline form can put a closing brace in front only by taking away a call of
`range` that such a brace follows directly. Behind a header there is no such call in front
(`Opened`); elsewhere the invariant is that the brace never follows a call of `range`, on which
lengths and ranges with a step are rewritten before.
-/

namespace Oxidize

open Pattern Text

variable {x y : Text}

/-! ### Single replacements -/

/-- How the texts begin that an inline form replaces. -/
def Inline.calls : List Text :=
  List.map String.toList ["println!(", "len(", "range(", "f\""]

theorem Inline.Turns.exists_call {i : Inline} (h : i.Turns x y) :
    ∃ w ∈ Inline.calls, ∃ z, ink x = w ++ z := by
  cases h <;> simp +decide [Inline.calls, ink_cons]

/-- How the texts begin that a header writes, up to the point where no inline form fits. -/
def Header.openings : List Text :=
  List.map String.toList ["fn", "fo", "let", "s", "w", "i"]

/-- The text begins as a header does that is no further branch. -/
def Opened (t : Text) : Prop :=
  ∃ k ∈ Header.openings, k <+: ink t

theorem Header.Turns.opened {h : Header} (hxy : h.Turns x y) (hx : (ink x).head? ≠ some '}')
    (hh : h ≠ .otherwise) : Opened y := by
  cases hxy with
  | conditional hkey hind =>
    cases hkey <;> simp +decide [Opened, openings, ink_cons, Gap.ink_eq hind] at hx ⊢
  | otherwise => exact absurd rfl hh
  | functionTo hind | function hind | record hind | openBinding hind | binding hind
  | overRange _ hind | forEach hind =>
    simp +decide [Opened, openings, ink_cons, Gap.ink_eq hind]

theorem Header.Turns.head?_ink_of_otherwise {h : Header} (hxy : h.Turns x y) (hh : h = .otherwise) :
    (ink y).head? = some '}' := by
  subst hh
  cases hxy with
  | otherwise hind => simp +decide [ink_cons, Gap.ink_eq hind]
  | overRange hi => cases hi
  | conditional hkey => cases hkey

/-- A header keeps a closing brace in front. -/
theorem Header.Turns.head?_ink {h : Header} (hxy : h.Turns x y) (hx : (ink x).head? = some '}') :
    (ink y).head? = some '}' := by
  cases hxy with
  | functionTo hind hkey | function hind hkey =>
    rcases hkey with rfl | rfl <;> simp +decide [ink_cons, Gap.ink_eq hind] at hx
  | record hind | overRange _ hind | forEach hind | otherwise hind =>
    simp +decide [ink_cons, Gap.ink_eq hind] at hx ⊢
  | conditional hkey hind =>
    cases hkey <;> simp +decide [ink_cons, Gap.ink_eq hind] at hx ⊢
  | openBinding hind hname h₁ | binding hind hname h₁ =>
    have := getD_ne (d := '=') (hname.head?_ink_ne (c := '}') rfl) (by decide)
    simp +decide [ink_cons, Gap.ink_eq hind, Gap.ink_eq h₁, this] at hx

/-- No call begins inside of an opening. -/
theorem Header.openings_apart : ∀ k ∈ openings, ∀ n < k.length, ∀ w ∈ Inline.calls,
    ¬k.drop n <+: w ∧ ¬w <+: k.drop n := by
  decide

theorem opening_before_call {k w p z : Text} (hk : k ∈ Header.openings) (hw : w ∈ Inline.calls)
    (h : k <+: p ++ (w ++ z)) : k <+: p := by
  rcases List.prefix_or_prefix_of_prefix h (List.prefix_append p _) with hkp | ⟨k', rfl⟩
  · exact hkp
  · -- Otherwise the call begins inside of the opening.
    rw [List.prefix_append_right_inj] at h
    have apart := Header.openings_apart _ hk p.length
    rw [List.drop_left] at apart
    by_cases hk' : k' = []
    · exact ⟨[], by simp [hk']⟩
    · have hlen : p.length < (p ++ k').length := by
        simpa using List.length_pos_iff.2 hk'
      have := apart hlen w hw
      exact absurd (List.prefix_or_prefix_of_prefix h (List.prefix_append w z)) (by simp [this])

/-- Behind an opening every inline form leaves the front alone. -/
theorem Opened.exchange {i : Inline} {p q : Text} (hxy : i.Turns x y)
    (h : Opened (p ++ (x ++ q))) : Opened (p ++ (y ++ q)) := by
  obtain ⟨k, hk, hstart⟩ := h
  obtain ⟨w, hw, z, hx⟩ := hxy.exists_call
  simp only [ink_append, hx, List.append_assoc] at hstart
  refine ⟨k, hk, ?_⟩
  rw [ink_append]
  exact (opening_before_call hk hw hstart).trans (List.prefix_append _ _)

theorem Opened.head?_ink_ne {t : Text} (h : Opened t) : (ink t).head? ≠ some '}' := by
  obtain ⟨k, hk, z, hz⟩ := h
  have hhead : ∀ k ∈ Header.openings, k ≠ [] ∧ k.head? ≠ some '}' := by decide
  obtain ⟨c, r, rfl⟩ := List.exists_cons_of_ne_nil (hhead k hk).1
  rw [← hz]
  exact (hhead _ hk).2

theorem Inline.Turns.head?_ink {i : Inline} (h : i.Turns x y) :
    ink x ≠ [] ∧ (ink x).head? ≠ some '}' := by
  obtain ⟨w, hw, z, hx⟩ := h.exists_call
  have hhead : ∀ w ∈ calls, w ≠ [] ∧ w.head? ≠ some '}' := by decide
  obtain ⟨c, r, rfl⟩ := List.exists_cons_of_ne_nil (hhead w hw).1
  rw [hx]
  exact ⟨List.cons_ne_nil c _, (hhead _ hw).2⟩

theorem Inline.Turns.head?_ink_new {i : Inline} (h : i.Turns x y) (hi : i ≠ .rangeBetween) :
    ink y ≠ [] ∧ (ink y).head? ≠ some '}' := by
  cases h with
  | rangeBetween => exact absurd rfl hi
  | length _ harg =>
    simpa +decide [ink_cons] using getD_ne (d := '.') (harg.head?_ink_ne (c := '}') rfl) (by decide)
  | _ => simp +decide [ink_cons]

theorem Membership.Turns.head?_ink {m : Membership} (h : m.Turns x y) :
    (ink x ≠ [] ∧ (ink x).head? ≠ some '}') ∧ ink y ≠ [] ∧ (ink y).head? ≠ some '}' := by
  cases h with
  | absent hitem hs =>
    have := getD_ne (d := '!') (hitem.head?_ink_ne (c := '}') rfl) (by decide)
    simpa +decide [ink_cons, Gap.ink_eq hs.gap] using this
  | present hitem hs _ hcollection =>
    have := getD_ne (d := 'i') (hitem.head?_ink_ne (c := '}') rfl) (by decide)
    have := getD_ne (d := '.') (hcollection.head?_ink_ne (c := '}') rfl) (by decide)
    simp +decide [ink_cons, Gap.ink_eq hs.gap, *]

/-! ### Calls of `range` -/

/-- The forms that are applied before ranges between two bounds. -/
def Inline.early : List Inline :=
  printing ++ [length, rangeStep]

/-- No closing brace follows the parenthesis that opens a call of `range`. -/
def Guarded (t : Text) : Prop :=
  ¬['e', '(', '}'] <:+: ink t

theorem infix_append_paren {p b : Text} (hb : b.head? ≠ some '}')
    (h : ['e', '(', '}'] <:+: p ++ '(' :: b) : ['e', '(', '}'] <:+: p ∨ ['e', '(', '}'] <:+: b := by
  rcases List.infix_append_iff_ne_nil.1 h with h | h | ⟨u, v, hu, hv, heq, -, hstart⟩
  · exact .inl h
  · exact .inr (by simpa [List.infix_cons_iff] using h)
  · obtain ⟨c, v, rfl⟩ := List.exists_cons_of_ne_nil hv
    rw [List.cons_prefix_cons] at hstart
    obtain ⟨rfl, z, rfl⟩ := hstart
    rcases u with _ | ⟨a, _ | ⟨a', _ | ⟨a'', u⟩⟩⟩ <;> simp at hu heq
    rw [← heq.2] at hb
    exact absurd rfl hb

/-- The forms that apply before ranges between two bounds put no brace behind such a parenthesis. -/
theorem Guarded.exchange {i : Inline} {p q : Text} (hi : i ∈ Inline.early) (hxy : i.Turns x y)
    (h : Guarded (p ++ (x ++ q))) : Guarded (p ++ (y ++ q)) := by
  have split {a b : Text} {c : Char} (hc : c ∉ ['e', '(', '}']) :
      ['e', '(', '}'] <:+: a ++ c :: b ↔ ['e', '(', '}'] <:+: a ∨ ['e', '(', '}'] <:+: b :=
    infix_append_cons (by decide) hc
  cases hxy with
  | printFormat | printInterpolated | printValue =>
    simpa +decide [Guarded, ink_cons, split, List.infix_cons_iff] using h
  | @length g arg g' hg harg hg' =>
    have hbrace : '}' ∉ ink arg := fun hmem => harg.not_mem rfl (mem_ink.1 hmem).1
    simp +decide [Guarded, ink_cons, split, List.infix_cons_iff, Gap.ink_eq hg,
      Gap.ink_eq hg'] at h ⊢
    -- The operand comes to stand behind `p` now, but it brings no brace of its own.
    rw [← List.append_assoc, split (by decide), not_or]
    exact ⟨fun hword => h.1 (infix_of_infix_append (w := ['e', '(']) hbrace hword),
      by simpa [List.infix_cons_iff] using h.2.2⟩
  | @rangeStep g₁ lower g₂ g₃ upper g₄ g₅ step g₆ h₁ _ h₂ h₃ _ h₄ h₅ _ h₆ =>
    simp +decide [Guarded, ink_cons, split, List.infix_cons_iff, Gap.ink_eq h₁, Gap.ink_eq h₂,
      Gap.ink_eq h₃, Gap.ink_eq h₄, Gap.ink_eq h₅, Gap.ink_eq h₆] at h ⊢
    obtain ⟨hp, hbrace, hlower, hupper, hstep, hq⟩ := h
    have hhead (r : Text) : (ink lower ++ '.' :: r).head? ≠ some '}' := by
      cases hl : ink lower with
      | nil => simp
      | cons c l => simpa [hl, eq_comm] using hbrace
    -- The new parenthesis replaces that of the call, so what follows it is no brace either.
    intro hword
    rcases infix_append_paren (hhead _) hword with hword | hword
    · exact hp hword
    · simp +decide [split, List.infix_cons_iff, hlower, hupper, hstep, hq] at hword
  | rangeBetween | rangeTo | interpolated => simp [Inline.early, Inline.printing] at hi

theorem Inline.Turns.head?_ink_of_guarded {r : Text} (hxy : Inline.rangeBetween.Turns x y)
    (h : Guarded (x ++ r)) : ink y ≠ [] ∧ (ink y).head? ≠ some '}' := by
  cases hxy with
  | @rangeBetween g₁ lower _ _ _ _ h₁ =>
    simp +decide [Guarded, ink_cons, List.infix_cons_iff, Gap.ink_eq h₁] at h
    cases hl : ink lower with
    | nil => simp +decide [ink_cons, hl]
    | cons c l =>
      have hc : c ≠ '}' := by
        rintro rfl
        exact h.1 (by simp [hl])
      simp [ink_cons, hl, hc]

theorem Inline.head?_ink_recastAll_rangeBetween {t : Text} (hfront : (ink t).head? ≠ some '}')
    (hguarded : Guarded t) : (ink (rangeBetween.form.recastAll t)).head? ≠ some '}' := by
  -- As long as nothing is written, what is to be read is as at the start.
  let Inv (done r : Text) : Prop :=
    (ink done = [] ∧ (ink r).head? ≠ some '}' ∧ Guarded r) ∨
      (ink done ≠ [] ∧ (ink done).head? ≠ some '}')
  have written {done u r : Text} (h : ink done ≠ [] ∧ (ink done).head? ≠ some '}') :
      Inv (done ++ u) r := by
    obtain ⟨c, d, hc⟩ := List.exists_cons_of_ne_nil h.1
    exact .inr (by simpa [hc] using h.2)
  have final : Inv (rangeBetween.form.recastAll t) [] := by
    refine Form.recastAll_induction Inv ?_ ?_ (.inl ⟨rfl, hfront, hguarded⟩)
    · rintro done c r (⟨hdone, hc, hr⟩ | h)
      · cases hspace : isSpace c with
        | true =>
          refine .inl ⟨by simp [hdone, ink_cons, hspace], ?_, ?_⟩
          · simpa [ink_cons, hspace] using hc
          · simpa [Guarded, ink_cons, hspace] using hr
        | false => exact .inr (by simpa [hdone, ink_cons, hspace] using hc)
      · exact written h
    · rintro done x y r hxy (⟨hdone, -, hr⟩ | h)
      · have := (turns_of_recasts hxy).head?_ink_of_guarded hr
        exact .inr (by simpa [hdone] using this)
      · exact written h
  rcases final with ⟨h, -⟩ | h
  · simp [h]
  · exact h.2

/-! ### Whole lines -/

namespace Line

variable {t code : Text}

theorem head?_ink_inline (ht : (ink t).head? = some '}') : (ink (inline t)).head? = some '}' := by
  refine inline_preserves (fun u => (ink u).head? = some '}') ?_ ?_ ht
  · intro i p x y q hxy h
    simp only [ink_append] at h ⊢
    exact head?_exchange hxy.head?_ink.1 hxy.head?_ink.2 h
  · intro m p x y q hxy h
    simp only [ink_append] at h ⊢
    exact head?_exchange hxy.head?_ink.1.1 hxy.head?_ink.1.2 h

theorem head?_ink_inline_ne (ht : (ink (expressions t)).head? ≠ some '}') :
    (ink (inline t)).head? ≠ some '}' := by
  rw [inline]
  split
  · refine memberships_preserves (fun u => (ink u).head? ≠ some '}') ?_ ht
    intro m p x y q hxy h
    simp only [ink_append] at h ⊢
    exact head?_exchange_ne hxy.head?_ink.2.1 hxy.head?_ink.2.2 h
  · exact ht

theorem opened_expressions (ht : Opened t) : Opened (expressions t) :=
  expressions_preserves Opened (fun _ _ _ _ _ hxy h => h.exchange hxy) ht

theorem head?_ink_expressions_ne (hfront : (ink t).head? ≠ some '}') (hguarded : Guarded t) :
    (ink (expressions t)).head? ≠ some '}' := by
  have hparts : expressions t = Form.recastWith ([Inline.rangeTo, .interpolated].map Inline.form)
      (Inline.rangeBetween.form.recastAll
        (Form.recastWith (Inline.early.map Inline.form) t)) := rfl
  have hbefore : (ink (Form.recastWith (Inline.early.map Inline.form) t)).head? ≠ some '}' ∧
      Guarded (Form.recastWith (Inline.early.map Inline.form) t) := by
    refine recastInline_preserves (fun u => (ink u).head? ≠ some '}' ∧ Guarded u) ?_
      ⟨hfront, hguarded⟩
    rintro i hi p x y q hxy ⟨h, hguarded⟩
    have hnew := hxy.head?_ink_new (by rintro rfl; revert hi; decide)
    refine ⟨?_, hguarded.exchange hi hxy⟩
    simp only [ink_append] at h ⊢
    exact head?_exchange_ne hnew.1 hnew.2 h
  rw [hparts]
  refine recastInline_preserves (fun u => (ink u).head? ≠ some '}') ?_
    (Inline.head?_ink_recastAll_rangeBetween hbefore.1 hbefore.2)
  intro i hi p x y q hxy h
  have hnew := hxy.head?_ink_new (by rintro rfl; revert hi; decide)
  simp only [ink_append] at h ⊢
  exact head?_exchange_ne hnew.1 hnew.2 h

theorem guarded_of_not_follows (h : ¬['(', '}'] <:+: ink t) : Guarded t :=
  fun hword => h (List.IsInfix.trans (by decide) hword)

/-- The code of a line begins with a closing brace exactly if it did so before or if it is the
branch for all other cases. -/
theorem head?_ink_convertCode (hpair : ¬['(', '}'] <:+: ink code) :
    (ink (convertCode code)).head? = some '}' ↔
      (ink code).head? = some '}' ∨ (header? code).map Prod.fst = some .otherwise := by
  have hinline : (ink (inline code)).head? = some '}' ↔ (ink code).head? = some '}' := by
    refine ⟨fun h => Decidable.byContradiction fun hne => ?_, head?_ink_inline⟩
    exact head?_ink_inline_ne (head?_ink_expressions_ne hne (guarded_of_not_follows hpair)) h
  rcases convertCode_cases code with ⟨h, t, hh, hturns, heq⟩ | ⟨hh, heq⟩ |
    ⟨hh, kept, g, hg, hkept, heq⟩
  · rw [hh, heq]
    by_cases hotherwise : h = .otherwise
    · simpa [hotherwise] using head?_ink_inline (hturns.head?_ink_of_otherwise hotherwise)
    · have : (ink (inline t)).head? = some '}' ↔ (ink code).head? = some '}' := by
        refine ⟨fun ht => Decidable.byContradiction fun hne => ?_,
          fun hcode => head?_ink_inline (hturns.head?_ink hcode)⟩
        exact head?_ink_inline_ne
          (opened_expressions (hturns.opened hne hotherwise)).head?_ink_ne ht
      simpa [hotherwise] using this
  · simpa [hh, heq] using hinline
  · have hfront : (ink (kept ++ ";")).head? = some '}' ↔ (ink (inline code)).head? = some '}' := by
      rw [hkept]
      cases hk : ink kept <;> simp +decide [ink_cons, hk, hg.ink_eq]
    rw [hh, heq, hfront, hinline]
    simp

end Line

end Oxidize
