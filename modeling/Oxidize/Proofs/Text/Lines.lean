import Oxidize.Text.Basic

/-!
# Lines and replacing

A text is empty, one last line, or a line, a line feed and a further text (`lines_induction`).
Replacing a fixed text that holds no line end goes line by line: it commutes with cutting into lines
(`lines_replaceAll`) if the new text is not empty and holds no line end either. An empty one could
make a last line vanish, or leave a carriage return at the end of its line.
-/

namespace Oxidize.Text

variable {c : Char} {l t p q r : Text}

/-! ### Cutting into lines -/

/-- A line without the carriage return at its end. -/
def dropReturn (l : Text) : Text :=
  if l.getLast? = some '\r' then l.dropLast else l

theorem dropReturn_append_return (l : Text) : dropReturn (l ++ ['\r']) = l := by
  simp [dropReturn]

theorem dropReturn_of_ne (h : l.getLast? ≠ some '\r') : dropReturn l = l :=
  if_neg h

theorem dropReturn_cons_cons (c d : Char) (l : Text) :
    dropReturn (c :: d :: l) = c :: dropReturn (d :: l) := by
  simp only [dropReturn, List.getLast?_cons_cons, List.dropLast_cons_cons]
  split <;> rfl

theorem lines_cons (hc : c ≠ '\n') (hr : c = '\r' → r.head? ≠ some '\n') :
    lines (c :: r) = extendFirst c (lines r) := by
  rw [lines.eq_4]
  · exact hc
  · rintro s rfl rfl
    exact hr rfl rfl

theorem lines_append_newline (hl : '\n' ∉ l) (r : Text) :
    lines (l ++ '\n' :: r) = dropReturn l :: lines r := by
  induction l with
  | nil => rfl
  | cons c l ih =>
    rw [List.mem_cons, not_or] at hl
    cases l with
    | nil =>
      -- Only a carriage return directly before the line feed belongs to the line end.
      by_cases hc : c = '\r'
      · rw [hc]
        rfl
      · rw [List.cons_append, lines_cons (Ne.symm hl.1) fun h => absurd h hc]
        simp [dropReturn, extendFirst, hc]
    | cons d l =>
      have hd : (d :: l ++ '\n' :: r).head? ≠ some '\n' :=
        fun h => hl.2 (Option.some.inj h ▸ List.mem_cons_self)
      rw [List.cons_append, lines_cons (Ne.symm hl.1) fun _ => hd, ih hl.2, dropReturn_cons_cons]
      rfl

theorem lines_of_not_mem (hl : '\n' ∉ l) (hne : l ≠ []) : lines l = [l] := by
  induction l with
  | nil => exact absurd rfl hne
  | cons c l ih =>
    rw [List.mem_cons, not_or] at hl
    cases l with
    | nil =>
      rw [lines_cons (Ne.symm hl.1) (by simp)]
      rfl
    | cons d l =>
      have hd : (d :: l).head? ≠ some '\n' :=
        fun h => hl.2 (Option.some.inj h ▸ List.mem_cons_self)
      rw [lines_cons (Ne.symm hl.1) fun _ => hd, ih hl.2 (List.cons_ne_nil d l)]
      rfl

/-- A text is empty, a last line, or a line and a further text. -/
theorem lines_induction {P : Text → Prop} (nil : P []) (last : ∀ l, '\n' ∉ l → l ≠ [] → P l)
    (line : ∀ l r, '\n' ∉ l → P r → P (l ++ '\n' :: r)) (t : Text) : P t := by
  induction hn : t.length using Nat.strongRecOn generalizing t with
  | _ n ih =>
    by_cases h : '\n' ∈ t
    · obtain ⟨l, r, rfl, hl⟩ := List.eq_append_cons_of_mem h
      refine line l r hl (ih r.length ?_ r rfl)
      simp only [List.length_append, List.length_cons] at hn
      omega
    · by_cases hne : t = []
      · exact hne ▸ nil
      · exact last t h hne

theorem dropReturn_subset (l : Text) : dropReturn l ⊆ l := by
  rw [dropReturn]
  split
  · exact List.dropLast_subset l
  · exact List.Subset.refl l

/-- No line holds a line feed. -/
theorem newline_not_mem_of_mem_lines (h : l ∈ lines t) : '\n' ∉ l := by
  induction t using lines_induction with
  | nil => cases h
  | last u hu hne =>
    rw [lines_of_not_mem hu hne, List.mem_singleton] at h
    exact h ▸ hu
  | line u r hu ih =>
    rw [lines_append_newline hu, List.mem_cons] at h
    rcases h with rfl | h
    · exact fun hmem => hu (dropReturn_subset u hmem)
    · exact ih h

theorem dropReturn_isPrefix (l : Text) : dropReturn l <+: l := by
  rw [dropReturn]
  split
  · exact List.dropLast_prefix l
  · exact List.prefix_rfl

/-- A line is a part of the text. -/
theorem infix_of_mem_lines (h : l ∈ lines t) : l <:+: t := by
  induction t using lines_induction with
  | nil => cases h
  | last u hu hne =>
    rw [lines_of_not_mem hu hne, List.mem_singleton] at h
    exact h ▸ List.infix_rfl
  | line u r hu ih =>
    rw [lines_append_newline hu, List.mem_cons] at h
    rcases h with rfl | h
    · exact (dropReturn_isPrefix u).isInfix.trans (List.prefix_append u _).isInfix
    · exact (ih h).trans ((List.suffix_cons '\n' r).trans (List.suffix_append u _)).isInfix

/-! ### Replacing a fixed text -/

theorem mem_replaceFrom {skip : Nat} (h : c ∈ replaceFrom p q skip t) : c ∈ q ∨ c ∈ t := by
  induction t generalizing skip with
  | nil => simp [replaceFrom] at h
  | cons d r ih =>
    cases skip with
    | succ skip => exact (ih h).imp_right (List.mem_cons_of_mem d)
    | zero =>
      rw [replaceFrom] at h
      split at h
      · rcases List.mem_append.1 h with h | h
        · exact .inl h
        · exact (ih h).imp_right (List.mem_cons_of_mem d)
      · rcases List.mem_cons.1 h with rfl | h
        · exact .inr List.mem_cons_self
        · exact (ih h).imp_right (List.mem_cons_of_mem d)

theorem newline_not_mem_replaceAll (hq : '\n' ∉ q) (ht : '\n' ∉ t) : '\n' ∉ replaceAll t p q := by
  rw [replaceAll]
  split
  · exact ht
  · exact fun h => (mem_replaceFrom h).elim hq ht

theorem isPrefixOf_append_cons (hc : c ∉ p) (t r : Text) :
    p.isPrefixOf (t ++ c :: r) = p.isPrefixOf t := by
  induction p generalizing t with
  | nil => simp
  | cons d p ih =>
    rw [List.mem_cons, not_or] at hc
    cases t with
    | nil => simp [List.isPrefixOf, Ne.symm hc.1]
    | cons e t => simp [List.isPrefixOf, ih hc.2]

theorem replaceFrom_append_cons (hp : p ≠ []) (hc : c ∉ p) (r : Text) {skip : Nat}
    (hskip : skip ≤ t.length) :
    replaceFrom p q skip (t ++ c :: r) = replaceFrom p q skip t ++ c :: replaceFrom p q 0 r := by
  induction t generalizing skip with
  | nil =>
    obtain rfl : skip = 0 := by simpa using hskip
    have hstart : p.isPrefixOf (c :: r) = false :=
      (isPrefixOf_append_cons hc [] r).trans
        (List.isPrefixOf_length_pos_nil (List.length_pos_iff.2 hp))
    simp [replaceFrom, hstart]
  | cons d t ih =>
    cases skip with
    | succ skip => exact ih (by simpa using hskip)
    | zero =>
      have hbegins : p.isPrefixOf (d :: (t ++ c :: r)) = p.isPrefixOf (d :: t) :=
        isPrefixOf_append_cons hc (d :: t) r
      rw [List.cons_append, replaceFrom, replaceFrom, hbegins]
      split
      · rename_i hstart
        have hlen := (List.isPrefixOf_iff_prefix.1 hstart).length_le
        rw [ih (by rw [List.length_cons] at hlen; omega), List.append_assoc]
      · rw [ih (Nat.zero_le _), List.cons_append]

/-- A character that the searched text does not hold separates its occurrences. -/
theorem replaceAll_append_cons (hc : c ∉ p) (t r : Text) :
    replaceAll (t ++ c :: r) p q = replaceAll t p q ++ c :: replaceAll r p q := by
  simp only [replaceAll]
  split
  · rfl
  · rename_i hp
    exact replaceFrom_append_cons (by simpa using hp) hc r (Nat.zero_le _)

theorem replaceFrom_ne_nil (hq : q ≠ []) (ht : t ≠ []) : replaceFrom p q 0 t ≠ [] := by
  obtain ⟨c, r, rfl⟩ := List.exists_cons_of_ne_nil ht
  rw [replaceFrom]
  split <;> simp [hq]

/-- A last character is one of the new text, or it was the last one before. -/
theorem getLast?_replaceFrom_ne (hq : q ≠ []) (hlast : q.getLast? ≠ some c)
    (ht : t.getLast? ≠ some c) {skip : Nat} : (replaceFrom p q skip t).getLast? ≠ some c := by
  induction t generalizing skip with
  | nil => simp [replaceFrom]
  | cons d r ih =>
    have hr : r.getLast? ≠ some c := by
      intro h
      rw [List.getLast?_cons, h] at ht
      exact ht rfl
    cases skip with
    | succ skip => exact ih hr
    | zero =>
      rw [replaceFrom]
      split
      · rw [List.getLast?_append, Ne, Option.or_eq_some_iff, not_or]
        exact ⟨ih hr, fun h => hlast h.2⟩
      · by_cases hnil : r = []
        · simpa [hnil, replaceFrom] using ht
        · rw [List.getLast?_cons_of_ne_nil (replaceFrom_ne_nil hq hnil)]
          exact ih hr

theorem replaceAll_ne_nil (hq : q ≠ []) (ht : t ≠ []) : replaceAll t p q ≠ [] := by
  rw [replaceAll]
  split
  · exact ht
  · exact replaceFrom_ne_nil hq ht

theorem getLast?_replaceAll_ne (hq : q ≠ []) (hlast : q.getLast? ≠ some c)
    (ht : t.getLast? ≠ some c) : (replaceAll t p q).getLast? ≠ some c := by
  rw [replaceAll]
  split
  · exact ht
  · exact getLast?_replaceFrom_ne hq hlast ht

theorem replaceAll_nil (p q : Text) : replaceAll [] p q = [] := by
  simp [replaceAll, replaceFrom]

theorem replaceAll_cons_of_not_mem (hc : c ∉ p) (r : Text) :
    replaceAll (c :: r) p q = c :: replaceAll r p q := by
  have h := replaceAll_append_cons (q := q) hc [] r
  rwa [replaceAll_nil] at h

/-! ### Line by line -/

section LineByLine

variable (hp : '\n' ∉ p ∧ '\r' ∉ p) (hq : '\n' ∉ q ∧ '\r' ∉ q) (hne : q ≠ [])

include hp hq hne

theorem dropReturn_replaceAll (l : Text) :
    dropReturn (replaceAll l p q) = replaceAll (dropReturn l) p q := by
  by_cases h : l.getLast? = some '\r'
  · obtain ⟨k, rfl⟩ := List.getLast?_eq_some_iff.1 h
    rw [replaceAll_append_cons hp.2, replaceAll_nil, dropReturn_append_return,
      dropReturn_append_return]
  · have hlast : q.getLast? ≠ some '\r' := fun h => hq.2 (List.mem_of_getLast? h)
    rw [dropReturn_of_ne h, dropReturn_of_ne (getLast?_replaceAll_ne hne hlast h)]

/-- Replacing in a text is replacing in each of its lines. -/
theorem lines_replaceAll (t : Text) :
    lines (replaceAll t p q) = (lines t).map fun l => replaceAll l p q := by
  induction t using lines_induction with
  | nil => rw [replaceAll_nil]; rfl
  | last l hl hnil =>
    rw [lines_of_not_mem hl hnil, lines_of_not_mem (newline_not_mem_replaceAll hq.1 hl)
      (replaceAll_ne_nil hne hnil)]
    rfl
  | line l r hl ih =>
    rw [replaceAll_append_cons hp.1, lines_append_newline (newline_not_mem_replaceAll hq.1 hl),
      lines_append_newline hl, ih, dropReturn_replaceAll hp hq hne, List.map_cons]

end LineByLine

end Oxidize.Text
