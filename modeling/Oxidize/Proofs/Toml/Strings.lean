import Oxidize.Toml.Grammar
import Oxidize.Toml.Reader

/-!
# Strings are read

The reader of strings does not refuse a string of the grammar and gives what it stands for
(`StringAt.readString_eq`). Between three quotes it first looks for the end. Since no more than two
quotes in a row belong to the string, either it finds the end with all that is left of the string,
or the string goes on (`Long.closing?_cases`).
-/

namespace Oxidize.Toml

variable {c q : Char} {s t u v w : Text} {run : Nat}

/-! ### Escapes -/

theorem Escape.readEscape_eq (h : Escape s c t) : readEscape s = some (c, t) := by
  cases h with
  | @letter l _ _ h =>
    have hshort : l ≠ 'u' := by
      rintro rfl
      cases h
    have hlong : l ≠ 'U' := by
      rintro rfl
      cases h
    rw [readEscape]
    · rw [h]
      rfl
    · rintro i j k l r h'
      exact absurd h' hshort
    · rintro i j k l i' j' k' l' r h'
      exact absurd h' hlong
  | four h => exact congrArg (Option.map fun d => (d, t)) h
  | eight h => exact congrArg (Option.map fun d => (d, t)) h

/-- The reader knows from its first character how long an escape is. -/
theorem Escape.exists_append (h : Escape s c t) :
    ∃ w, s = w ++ t ∧ w.length = escapeLength (s.headD ' ') ∧ 0 < w.length := by
  cases h with
  | @letter l _ _ h =>
    refine ⟨[l], rfl, ?_, Nat.zero_lt_one⟩
    show 1 = escapeLength l
    rw [escapeLength]
    · rintro rfl
      cases h
    · rintro rfl
      cases h
  | four => exact ⟨['u', _, _, _, _], rfl, rfl, Nat.zero_lt_succ _⟩
  | eight => exact ⟨['U', _, _, _, _, _, _, _, _], rfl, rfl, Nat.zero_lt_succ _⟩

theorem Escape.endsLine_eq (h : Escape s c t) : endsLine s = false := by
  cases h with
  | letter h =>
    unfold escapedChar? at h
    split at h
    all_goals first
      | rfl
      | cases h
  | four => rfl
  | eight => rfl

/-! ### Strings on one line -/

theorem readBasic_skip (w r : Text) : readBasic w.length (w ++ r) = readBasic 0 r := by
  induction w with
  | nil => rfl
  | cons c w ih => exact ih

theorem Short.readBasic_eq (h : Short '"' s v t) : readBasic 0 s = some (v, t) := by
  induction h with
  | close => rfl
  | char hc hq hescape _ ih =>
    rw [readBasic]
    simp only [if_neg hq, if_neg (hescape rfl), if_pos hc, ih]
    rfl
  | @escape c s u v t hq hc _ ih =>
    obtain ⟨w, rfl, hlength, -⟩ := hc.exists_append
    rw [readBasic]
    simp only [if_true, hc.readEscape_eq, ← hlength, readBasic_skip, ih]
    rfl

theorem Short.readLiteral_eq (h : Short '\'' s v t) : readLiteral s = some (v, t) := by
  induction h with
  | close => rfl
  | char hc hq _ _ ih =>
    rw [readLiteral]
    simp only [if_neg hq, if_pos hc, ih]
    rfl
  | escape hq => cases hq

/-! ### Strings between three quotes -/

theorem closing?_eq_none (h : ¬ [q, q, q] <+: s) : closing? q s = none := by
  rw [closing?.eq_def]
  split
  · rename_i r
    refine if_neg ?_
    rintro ⟨rfl, rfl, rfl⟩
    exact h (List.prefix_append _ r)
  · rfl

/-- Where the end of a string between three quotes is found, with up to two quotes in front. -/
theorem closing?_replicate {n : Nat} (hn : n ≤ 2) (ht : t.head? ≠ some q) :
    closing? q (List.replicate n q ++ q :: q :: q :: t) = some (List.replicate n q, t) := by
  obtain rfl | rfl | rfl : n = 0 ∨ n = 1 ∨ n = 2 := by omega
  all_goals rcases t with _ | ⟨d, _ | ⟨e, t⟩⟩ <;> simp_all [closing?]

theorem closing?_replicate_of_ne {n : Nat} (hn : n ≤ 2) (hc : c ≠ q) :
    closing? q (List.replicate n q ++ c :: s) = none := by
  refine closing?_eq_none ?_
  obtain rfl | rfl | rfl : n = 0 ∨ n = 1 ∨ n = 2 := by omega
  all_goals simp [hc.symm]

/-- Behind `n` of the quotes in front, the end is found with these quotes and all that is left of
the string, or it is not found here. -/
theorem Long.closing?_replicate_cases (h : Long q run s v t) {n : Nat} (hn : n ≤ 2)
    (hrun : n ≤ run) :
    closing? q (List.replicate n q ++ s) = none ∨
      closing? q (List.replicate n q ++ s) = some (List.replicate n q ++ v, t) := by
  induction h generalizing n with
  | close ht => exact .inr (by simpa using closing?_replicate hn ht)
  | quote _ _ ih =>
    -- One more of the quotes in front, of which there are at most two.
    have hcases := @ih (n + 1) (by omega) (by omega)
    simpa [List.replicate_succ'] using hcases
  | char _ hq => exact .inl (closing?_replicate_of_ne hn hq)
  | escape hq =>
    refine .inl (closing?_replicate_of_ne hn ?_)
    rw [hq]
    decide

theorem Long.closing?_cases (h : Long q run s v t) :
    closing? q s = none ∨ closing? q s = some (v, t) :=
  h.closing?_replicate_cases (Nat.zero_le 2) (Nat.zero_le run)

theorem readLongBasic_skip (hw : 0 < w.length) (r : Text) :
    readLongBasic (.escape w.length) (w ++ r) = readLongBasic .plain r := by
  induction w with
  | nil => simp at hw
  | cons c w ih =>
    rw [List.length_cons, List.cons_append, readLongBasic]
    cases w with
    | nil => rfl
    | cons d w => exact ih (by simp)

theorem readLongBasic_of_closing? {x : Text × Text} (h : closing? '"' s = some x) :
    readLongBasic .plain s = some x := by
  cases s with
  | nil => cases h
  | cons c s =>
    rw [readLongBasic]
    · simp only [reduceCtorEq, false_and, if_false, h]
    · simp

theorem readLongBasic_char (hclosing : closing? '"' (c :: s) = none) (hbackslash : c ≠ '\\')
    (hc : c = '\n' ∨ isPrintable c) (hs : readLongBasic .plain s = some (v, t)) :
    readLongBasic .plain (c :: s) = some (c :: v, t) := by
  have hreturn : c ≠ '\r' := by
    rintro rfl
    exact absurd hc (by decide)
  rw [readLongBasic]
  · simp only [reduceCtorEq, false_and, if_false, hclosing, if_neg hbackslash, hreturn, if_pos hc,
      hs]
    rfl
  · simp

theorem readLongBasic_escape (hclosing : closing? '"' ('\\' :: s) = none) (hc : Escape s c u)
    (hu : readLongBasic .plain u = some (v, t)) :
    readLongBasic .plain ('\\' :: s) = some (c :: v, t) := by
  have hends := hc.endsLine_eq
  have hread := hc.readEscape_eq
  obtain ⟨w, rfl, hlength, hpos⟩ := hc.exists_append
  rw [readLongBasic]
  · simp only [reduceCtorEq, false_and, if_false, hclosing, if_true, hends, Bool.false_eq_true,
      hread, ← hlength, readLongBasic_skip hpos, hu]
    rfl
  · simp

theorem Long.readLongBasic_eq (h : Long '"' run s v t) : readLongBasic .plain s = some (v, t) := by
  induction h with
  | close ht => exact readLongBasic_of_closing? (closing?_replicate (Nat.zero_le 2) ht)
  | quote hrun h ih =>
    rcases (Long.quote hrun h).closing?_cases with hclosing | hclosing
    · exact readLongBasic_char hclosing (by decide) (.inr rfl) ih
    · exact readLongBasic_of_closing? hclosing
  | char hc hq hescape h ih =>
    exact readLongBasic_char (closing?_eq_none (by simp [hq.symm])) (hescape rfl) hc ih
  | escape _ hc _ ih => exact readLongBasic_escape (closing?_eq_none (by simp)) hc ih

theorem readLongLiteral_of_closing? {x : Text × Text} (h : closing? '\'' s = some x) :
    readLongLiteral s = some x := by
  cases s with
  | nil => cases h
  | cons c s => simp only [readLongLiteral, h]

theorem readLongLiteral_char (hclosing : closing? '\'' (c :: s) = none)
    (hc : c = '\n' ∨ isPrintable c) (hs : readLongLiteral s = some (v, t)) :
    readLongLiteral (c :: s) = some (c :: v, t) := by
  have hreturn : c ≠ '\r' := by
    rintro rfl
    exact absurd hc (by decide)
  rw [readLongLiteral]
  simp only [hclosing, hreturn, false_and, if_false, if_pos hc, hs]
  rfl

theorem Long.readLongLiteral_eq (h : Long '\'' run s v t) : readLongLiteral s = some (v, t) := by
  induction h with
  | close ht => exact readLongLiteral_of_closing? (closing?_replicate (Nat.zero_le 2) ht)
  | quote hrun h ih =>
    rcases (Long.quote hrun h).closing?_cases with hclosing | hclosing
    · exact readLongLiteral_char hclosing (.inr rfl) ih
    · exact readLongLiteral_of_closing? hclosing
  | char hc hq _ h ih =>
    exact readLongLiteral_char (closing?_eq_none (by simp [hq.symm])) hc ih
  | escape hq => cases hq

/-! ### Strings of any kind -/

/-- Two quotes at the start of a string on one line are the empty string, and no third one
follows. -/
theorem Short.not_quotes (h : Short q s v t) (ht : t.head? ≠ some q) : ∀ r, s ≠ q :: q :: r := by
  rintro r rfl
  cases h with
  | close => exact ht rfl
  | char _ hq => exact hq rfl
  | escape hq => cases hq

theorem Long.dropNewline_eq (hq : IsQuote q) (h : Long q run s v t) (hs : s.head? ≠ some '\n') :
    dropNewline s = s := by
  rw [dropNewline]
  · rintro r rfl
    exact hs rfl
  · rintro r rfl
    cases h with
    | quote => exact absurd hq (by rintro (h | h) <;> cases h)
    | char hc => exact absurd hc (by decide)

theorem StringAt.readString_eq (h : StringAt s v t) : readString s = some (v, t) := by
  cases h with
  | short hq h ht =>
    have hopen := h.not_quotes ht
    rcases hq with rfl | rfl
    · rw [readString]
      · exact h.readBasic_eq
      · exact hopen
    · rw [readString]
      · exact h.readLiteral_eq
      · exact hopen
  | long hq h hs =>
    have hdrop := h.dropNewline_eq hq hs
    rcases hq with rfl | rfl
    · rw [readString, hdrop, h.readLongBasic_eq]
    · rw [readString, hdrop, h.readLongLiteral_eq]
  | lines hq h =>
    rcases hq with rfl | rfl
    · exact h.readLongBasic_eq
    · exact h.readLongLiteral_eq

end Oxidize.Toml
