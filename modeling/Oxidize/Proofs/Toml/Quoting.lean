import Mathlib.Tactic.SplitIfs
import Oxidize.Toml.Grammar
import Oxidize.Toml.Writer

/-!
# Written strings

Whatever the style in which a string is written, the grammar knows the result as that string
(`stringAt_writeString`). What the writer puts for a character between double quotes is the
character itself or an escape that stands for it (`escapedText_cases`). Of the quotes that could end
a string between three quotes it writes at most two in a row: it escapes the third one, or it has
chosen another style.
-/

namespace Oxidize.Toml

variable {c q : Char} {s t v rest : Text} {run : Nat} {long : Bool}

/-! ### Characters and escapes -/

theorem eq_or_isPrintable (hc : needsEscape c = false) : c = '\n' ∨ isPrintable c := by
  simp only [needsEscape, Bool.and_eq_false_iff, Bool.or_eq_false_iff, decide_eq_false_iff_not,
    Decidable.not_not, Char.not_lt] at hc
  simp only [isPrintable, Bool.or_eq_true, Bool.and_eq_true, decide_eq_true_eq]
  grind

/-- Four digits are enough for the characters that can only be written by their number. -/
theorem numberedChar?_fourDigits : ∀ n < 128,
    (fourDigits n).length = 4 ∧ numberedChar? (fourDigits n) = some (Char.ofNat n) := by
  decide +kernel

theorem escape_number (hc : needsEscape c) (r : Text) :
    Escape ('u' :: fourDigits c.toNat ++ r) c r := by
  have hsmall : c.toNat < 128 := by
    simp only [needsEscape, Bool.and_eq_true, Bool.or_eq_true, decide_eq_true_eq] at hc
    rcases hc.2 with hlt | rfl
    · have : c.toNat < 32 := hlt
      omega
    · decide
  obtain ⟨hlength, hread⟩ := numberedChar?_fourDigits c.toNat hsmall
  rw [Char.ofNat_toNat] at hread
  match h : fourDigits c.toNat, hlength with
  | [_, _, _, _], _ =>
    rw [h] at hread
    exact .four hread

/-- Between double quotes a character is written by an escape, or as it is. -/
theorem escapedText_cases (long : Bool) (c : Char) :
    (∃ w, escapedText long c = '\\' :: w ∧ ∀ r, Escape (w ++ r) c r) ∨
      (escapedText long c = [c] ∧ c ≠ '\\' ∧ (isPrintable c ∨ long ∧ c = '\n')) := by
  have letter {l d : Char} (hd : escapedChar? l = some d) (hw : escapedText long d = ['\\', l]) :
      ∃ w, escapedText long d = '\\' :: w ∧ ∀ r, Escape (w ++ r) d r :=
    ⟨[l], hw, fun _ => .letter hd⟩
  by_cases hb : c = '\x08'
  · exact .inl (hb ▸ letter (l := 'b') rfl rfl)
  by_cases ht : c = '\t'
  · exact .inl (ht ▸ letter (l := 't') rfl rfl)
  by_cases hn : c = '\n'
  · subst hn
    cases long with
    | true => exact .inr ⟨rfl, by decide, .inr ⟨rfl, rfl⟩⟩
    | false => exact .inl (letter (l := 'n') rfl rfl)
  by_cases hf : c = '\x0c'
  · exact .inl (hf ▸ letter (l := 'f') rfl rfl)
  by_cases hr : c = '\r'
  · exact .inl (hr ▸ letter (l := 'r') rfl rfl)
  by_cases hbackslash : c = '\\'
  · exact .inl (hbackslash ▸ letter (l := '\\') rfl rfl)
  have hother : escapedText long c =
      if needsEscape c then "\\u" ++ fourDigits c.toNat else [c] := by
    simp only [escapedText, if_neg hb, if_neg ht, if_neg hn, if_neg hf, if_neg hr,
      if_neg hbackslash]
  by_cases hescape : needsEscape c
  · rw [if_pos hescape] at hother
    exact .inl ⟨_, hother, escape_number hescape⟩
  · rw [if_neg hescape] at hother
    have hprintable := (eq_or_isPrintable (by simpa using hescape)).resolve_left hn
    exact .inr ⟨hother, hbackslash, .inl hprintable⟩

/-- What the inside of a string begins with: an escape, a character that needs none, or a double
quote of which few stand in a row. -/
theorem escaped_cons_cases (long : Bool) (run : Nat) (c : Char) (t : Text) :
    (∃ w, escaped long run (c :: t) = '\\' :: (w ++ escaped long 0 t) ∧
        ∀ r, Escape (w ++ r) c r) ∨
      (escaped long run (c :: t) = c :: escaped long 0 t ∧ c ≠ '"' ∧ c ≠ '\\' ∧
        (isPrintable c ∨ long ∧ c = '\n')) ∨
      (escaped long run (c :: t) = c :: escaped long (run + 1) t ∧ c = '"' ∧ long ∧ run < 2) := by
  rw [escaped]
  by_cases hquote : c = '"'
  · rw [if_pos hquote]
    by_cases hraw : long ∧ run < 2
    · rw [if_pos (by simpa using hraw)]
      exact .inr (.inr ⟨rfl, hquote, hraw⟩)
    · rw [if_neg (by simpa using hraw)]
      exact .inl ⟨[c], rfl, fun _ => hquote ▸ .letter rfl⟩
  · rw [if_neg hquote]
    rcases escapedText_cases long c with ⟨w, hw, hescape⟩ | ⟨hw, hbackslash, hc⟩
    · exact .inl ⟨w, by rw [hw, List.cons_append], hescape⟩
    · exact .inr (.inl ⟨by rw [hw, List.singleton_append], hquote, hbackslash, hc⟩)

/-! ### Strings on one line -/

theorem short_escaped (t rest : Text) : Short '"' (escaped false 0 t ++ '"' :: rest) t rest := by
  induction t with
  | nil => exact .close
  | cons c t ih =>
    rcases escaped_cons_cases false 0 c t with ⟨w, hw, hescape⟩ | ⟨hw, hquote, hbackslash, hc⟩ |
      ⟨-, -, hlong, -⟩
    · rw [hw, List.cons_append, List.append_assoc]
      exact .escape rfl (hescape _) ih
    · rw [hw]
      exact .char (by simpa using hc) hquote (fun _ => hbackslash) ih
    · cases hlong

theorem short_literal (ht : ∀ c ∈ t, c ≠ '\'' ∧ isPrintable c) (rest : Text) :
    Short '\'' (t ++ '\'' :: rest) t rest := by
  induction t with
  | nil => exact .close
  | cons c t ih =>
    rw [List.forall_mem_cons] at ht
    exact .char ht.1.2 ht.1.1 nofun (ih ht.2)

/-! ### Strings between three quotes -/

theorem long_escaped (hrest : rest.head? ≠ some '"') (run : Nat) (t : Text) :
    Long '"' run (escaped true run t ++ '"' :: '"' :: '"' :: rest) t rest := by
  induction t generalizing run with
  | nil => exact .close hrest
  | cons c t ih =>
    rcases escaped_cons_cases true run c t with ⟨w, hw, hescape⟩ | ⟨hw, hquote, hbackslash, hc⟩ |
      ⟨hw, rfl, -, hrun⟩
    · rw [hw, List.cons_append, List.append_assoc]
      exact .escape rfl (hescape _) (ih 0)
    · rw [hw]
      exact .char (by simpa [or_comm] using hc) hquote (fun _ => hbackslash) (ih 0)
    · rw [hw]
      exact .quote hrun (ih (run + 1))

theorem le_longestRun (q : Char) (run : Nat) (t : Text) : run ≤ longestRun q run t := by
  induction t generalizing run with
  | nil => exact Nat.le_refl _
  | cons c t ih =>
    rw [longestRun]
    split
    · exact Nat.le_of_succ_le (ih (run + 1))
    · exact Nat.le_max_left run _

theorem not_mem_of_longestRun (h : longestRun q 0 t = 0) : q ∉ t := by
  induction t with
  | nil => exact List.not_mem_nil
  | cons c t ih =>
    rw [longestRun] at h
    split at h
    · have := le_longestRun q (0 + 1) t
      omega
    · rename_i hc
      rw [List.mem_cons, not_or]
      exact ⟨Ne.symm hc, ih (by omega)⟩

theorem long_literal (hrest : rest.head? ≠ some '\'') (ht : longestRun '\'' run t ≤ 2)
    (hchars : ∀ c ∈ t, needsEscape c = false) :
    Long '\'' run (t ++ '\'' :: '\'' :: '\'' :: rest) t rest := by
  induction t generalizing run with
  | nil => exact .close hrest
  | cons c t ih =>
    rw [List.forall_mem_cons] at hchars
    rw [longestRun] at ht
    split at ht
    · rename_i hc
      subst hc
      have hrun := Nat.le_trans (le_longestRun '\'' (run + 1) t) ht
      exact .quote hrun (ih ht hchars.2)
    · rename_i hc
      exact .char (eq_or_isPrintable hchars.1) hc nofun
        (ih (Nat.le_trans (Nat.le_max_right run _) ht) hchars.2)

/-! ### Strings of any style -/

theorem Long.newline_mem (hq : IsQuote q) (h : Long q run s v t) (hs : s.head? = some '\n') :
    '\n' ∈ v := by
  have hne : some q ≠ some '\n' := by
    rintro ⟨⟩
    rcases hq with h | h <;> cases h
  cases h with
  | close => exact absurd hs hne
  | quote => exact absurd hs hne
  | char =>
    obtain rfl := Option.some.inj hs
    exact List.mem_cons_self
  | escape => cases hs

theorem stringAt_opening (hq : IsQuote q) (h : Long q 0 s v t) :
    StringAt (q :: q :: q :: (opening v ++ s)) v t := by
  rw [opening]
  split
  · exact .lines hq h
  · rename_i hnewline
    exact .long hq h fun hs => hnewline (by simpa using h.newline_mem hq hs)

theorem forall_of_styleOf_literal (h : styleOf t = .literal) :
    ∀ c ∈ t, c ≠ '\'' ∧ isPrintable c := by
  simp only [styleOf] at h
  split_ifs at h with _ hplain
  simp only [Bool.and_eq_true, Bool.not_eq_true', List.any_eq_false, decide_eq_true_eq] at hplain
  obtain ⟨⟨hescapes, hsingles⟩, hnewline⟩ := hplain
  intro c hc
  refine ⟨?_, ?_⟩
  · rintro rfl
    exact not_mem_of_longestRun hsingles hc
  · refine (eq_or_isPrintable (by simpa using hescapes c hc)).resolve_left ?_
    rintro rfl
    simp [hc] at hnewline

theorem forall_of_styleOf_longLiteral (h : styleOf t = .longLiteral) :
    longestRun '\'' 0 t ≤ 2 ∧ ∀ c ∈ t, needsEscape c = false := by
  simp only [styleOf] at h
  split_ifs at h with _ _ _ hplain
  simpa [and_comm] using hplain

/-- A written string is a string, if no quote follows. -/
theorem stringAt_writeString (t : Text) (hrest : ∀ c ∈ rest.head?, c ≠ '"' ∧ c ≠ '\'') :
    StringAt (writeString t ++ rest) t rest := by
  have hdouble : rest.head? ≠ some '"' := fun h => (hrest _ h).1 rfl
  have hsingle : rest.head? ≠ some '\'' := fun h => (hrest _ h).2 rfl
  rw [writeString]
  cases hstyle : styleOf t with
  | basic => simpa using StringAt.short (.inl rfl) (short_escaped t rest) hdouble
  | literal =>
    have hshort := short_literal (forall_of_styleOf_literal hstyle) rest
    simpa using StringAt.short (.inr rfl) hshort hsingle
  | longBasic => simpa using stringAt_opening (.inl rfl) (long_escaped hdouble 0 t)
  | longLiteral =>
    obtain ⟨hrun, hchars⟩ := forall_of_styleOf_longLiteral hstyle
    simpa using stringAt_opening (.inr rfl) (long_literal hsingle hrun hchars)

end Oxidize.Toml
