import Oxidize.Line
import Oxidize.Proofs.Form.Ending
import Oxidize.Proofs.Form.Header

/-!
# The stages of a line

What each stage of the conversion of a line can do, in terms of `Header.Turns`, `Inline.Turns` and
`Membership.Turns`. A property of texts that every single replacement keeps is kept by all inline
forms together (`inline_preserves`). `convertCode_cases` puts the stages together.
-/

namespace Oxidize.Line

variable {code t u : Text} {h : Header}

/-- The first header that the code of a line has the shape of. -/
def head? (line : Text) : Option Header :=
  (header? (Comment.split line).1).map Prod.fst

theorem convert_eq (line : Text) :
    convert line = if (Comment.split line).1.isBlank then line
      else convertCode (Comment.split line).1 ++ (Comment.split line).2 := rfl

/-- The first header recasts the code by its rule. -/
theorem turns_of_header? (hh : header? code = some (h, t)) : h.Turns code t := by
  obtain ⟨h', -, hrecast⟩ := List.exists_of_findSome?_eq_some hh
  simp only [Option.map_eq_some_iff, Prod.mk.injEq] at hrecast
  obtain ⟨_, hrecast, rfl, rfl⟩ := hrecast
  exact Header.turns_of_recasts (Form.recasts_of_recast? h'.isWhole_pattern hrecast)

/-- White space is no header. -/
theorem header?_of_gap (hcode : code.Gap) : header? code = none := by
  cases hh : header? code with
  | none => rfl
  | some found => exact absurd hcode (turns_of_header? hh).not_gap

/-- No line is the head of a loop over a collection and holds a condition or a binding. -/
theorem isLoop_of_isCondition (ht : isCondition t) : isLoop t = false := by
  cases t with
  | nil => rfl
  | cons d t =>
    by_cases hd : d = 'f'
    · simp +decide [isCondition, Text.startsWith, hd] at ht
    · simp [isLoop, Text.startsWith, List.isPrefixOf, Ne.symm hd]

/-- What every single replacement of some inline forms keeps, all of them keep. -/
theorem recastInline_preserves (Inv : Text → Prop) {is : List Inline}
    (step : ∀ i ∈ is, ∀ p x y q, i.Turns x y → Inv (p ++ (x ++ q)) → Inv (p ++ (y ++ q)))
    (ht : Inv t) : Inv (Form.recastWith (is.map Inline.form) t) := by
  refine Form.recastWith_preserves Inv ?_ ht
  rintro _ hf p x y q hxy
  obtain ⟨i, hi, rfl⟩ := List.mem_map.1 hf
  exact step i hi p x y q (Inline.turns_of_recasts hxy)

theorem expressions_preserves (Inv : Text → Prop)
    (step : ∀ (i : Inline) p x y q, i.Turns x y → Inv (p ++ (x ++ q)) → Inv (p ++ (y ++ q)))
    (ht : Inv t) : Inv (expressions t) :=
  recastInline_preserves Inv (fun i _ => step i) ht

theorem memberships_preserves (Inv : Text → Prop)
    (step : ∀ (m : Membership) p x y q, m.Turns x y → Inv (p ++ (x ++ q)) → Inv (p ++ (y ++ q)))
    (ht : Inv t) : Inv (memberships t) := by
  refine Form.recastWith_preserves Inv ?_ ht
  rintro _ hf p x y q hxy
  obtain ⟨m, -, rfl⟩ := List.mem_map.1 hf
  exact step m p x y q (Membership.turns_of_recasts hxy)

/-- What every single replacement keeps, the inline stage keeps. -/
theorem inline_preserves (Inv : Text → Prop)
    (expression : ∀ (i : Inline) p x y q, i.Turns x y → Inv (p ++ (x ++ q)) → Inv (p ++ (y ++ q)))
    (membership : ∀ (m : Membership) p x y q, m.Turns x y → Inv (p ++ (x ++ q)) →
      Inv (p ++ (y ++ q)))
    (ht : Inv t) : Inv (inline t) := by
  have hexpressions := expressions_preserves Inv expression ht
  rw [inline]
  split
  · exact memberships_preserves Inv membership hexpressions
  · exact hexpressions

/-- A semicolon stands in the place of the white space at the end of a statement. -/
theorem exists_of_ended? (ht : ended? t = some u) :
    ∃ kept g : Text, g.Gap ∧ t = kept ++ g ∧ u = kept ++ ";" := by
  obtain ⟨e, -, hrecast⟩ := List.exists_of_findSome?_eq_some ht
  exact Ending.exists_of_recasts (Form.recasts_of_recast? e.isWhole_pattern hrecast)

/-- What can become of the code of a line: a header and then the inline stage, the inline stage
alone, or the inline stage and a semicolon at the end. -/
theorem convertCode_cases (code : Text) :
    (∃ h t, header? code = some (h, t) ∧ h.Turns code t ∧ convertCode code = inline t) ∨
    (header? code = none ∧ convertCode code = inline code) ∨
    (header? code = none ∧
      ∃ kept g : Text, g.Gap ∧ inline code = kept ++ g ∧ convertCode code = kept ++ ";") := by
  rw [convertCode]
  cases hh : header? code with
  | some found => exact .inl ⟨found.1, found.2, rfl, turns_of_header? hh, rfl⟩
  | none =>
    refine .inr ?_
    cases hended : ended? (inline code) with
    | none => exact .inl ⟨rfl, rfl⟩
    | some u =>
      obtain ⟨kept, g, hg, hkept, hu⟩ := exists_of_ended? hended
      exact .inr ⟨rfl, kept, g, hg, hkept, hu⟩

end Oxidize.Line
