import Oxidize.Proofs.Text.Run
import Oxidize.Proofs.Toml.Strings

/-!
# Blanks, comments and keys are read

What the grammar says about white space and keys is what the reader does with them: it skips blanks
(`Blanks.skipBlanks_eq`), line ends and comments (`Filler.skipLines_eq`), reads to the end of a line
(`LineEnd.skipComment_eq`) and reads a key of one part (`KeyAt.readKey_eq`). A key begins with a
character that begins nothing else where keys stand (`KeyAt.exists_cons`).
-/

namespace Oxidize.Toml

open Text

variable {c q : Char} {k s s₁ s₂ t v : Text} {run : Nat} {inComment : Bool}

/-! ### White space -/

/-- The characters that blanks, line ends and comments begin with. -/
def isFillerChar (c : Char) : Bool :=
  isBlankChar c || c = '\n' || c = '\r' || c = '#'

theorem isBlankChar_of_filler (hc : isFillerChar c = false) : isBlankChar c = false := by
  simp only [isFillerChar, Bool.or_eq_false_iff] at hc
  exact hc.1.1.1

theorem Blanks.length_le (h : Blanks s t) : t.length ≤ s.length := by
  induction h with
  | nil => exact Nat.le_refl _
  | cons _ _ ih => exact Nat.le_succ_of_le ih

theorem LineEnd.length_lt (h : LineEnd inComment s t) : t.length < s.length := by
  induction h with
  | feed => exact Nat.lt_succ_self _
  | blank _ _ ih | mark _ ih | char _ _ ih => exact Nat.lt_succ_of_lt ih

theorem Filler.length_le (h : Filler s t) : t.length ≤ s.length := by
  induction h with
  | nil => exact Nat.le_refl _
  | blank _ _ ih => exact Nat.le_succ_of_le ih
  | comment hs _ ih => exact Nat.le_succ_of_le (Nat.le_trans ih (Nat.le_of_lt hs.length_lt))

theorem Blanks.skipBlanks_eq (h : Blanks s t) : skipBlanks s = skipBlanks t := by
  induction h with
  | nil => rfl
  | cons hc _ ih => exact (List.dropWhile_cons_of_pos hc).trans ih

theorem skipBlanks_cons (hc : isBlankChar c = false) (t : Text) : skipBlanks (c :: t) = c :: t :=
  List.dropWhile_cons_of_neg (by simp [hc])

theorem Blanks.skipBlanks_eq_cons (h : Blanks s (c :: t)) (hc : isBlankChar c = false) :
    skipBlanks s = c :: t :=
  h.skipBlanks_eq.trans (skipBlanks_cons hc t)

theorem ne_of_class {p : Char → Bool} {d : Char} (hc : p c) (hd : p d = false) : c ≠ d := by
  rintro rfl
  exact Bool.false_ne_true (hd.symm.trans hc)

theorem ne_newline_of_isBlankChar (hc : isBlankChar c) : c ≠ '\n' ∧ c ≠ '\r' :=
  ⟨ne_of_class hc (by decide), ne_of_class hc (by decide)⟩

theorem ne_newline_of_isPrintable (hc : isPrintable c) : c ≠ '\n' ∧ c ≠ '\r' :=
  ⟨ne_of_class hc (by decide), ne_of_class hc (by decide)⟩

theorem LineEnd.skipComment_eq (h : LineEnd inComment s t) :
    skipComment inComment s = some t := by
  induction h with
  | feed => rfl
  | blank hc _ ih =>
    obtain ⟨hnewline, hreturn⟩ := ne_newline_of_isBlankChar hc
    simp [skipComment, hnewline, hreturn, hc, ih]
  | mark _ ih => exact ih
  | char hc _ ih =>
    obtain ⟨hnewline, hreturn⟩ := ne_newline_of_isPrintable hc
    simp [skipComment, hnewline, hreturn, hc, ih]

theorem LineEnd.skipLines_eq (h : LineEnd inComment s t) (hcomment : inComment) :
    skipLines true s = skipLines false t := by
  induction h with
  | feed => rfl
  | blank | mark => cases hcomment
  | char hc _ ih =>
    obtain ⟨hnewline, hreturn⟩ := ne_newline_of_isPrintable hc
    simp [skipLines, hnewline, hreturn, hc, ih hcomment]

theorem Filler.skipLines_eq (h : Filler s t) : skipLines false s = skipLines false t := by
  induction h with
  | nil => rfl
  | blank hc _ ih =>
    rcases hc with hc | rfl
    · obtain ⟨hnewline, hreturn⟩ := ne_newline_of_isBlankChar hc
      simp [skipLines, hnewline, hreturn, hc, ih]
    · exact ih
  | comment hs _ ih => exact (hs.skipLines_eq rfl).trans ih

theorem skipLines_cons (hc : isFillerChar c = false) (t : Text) :
    skipLines false (c :: t) = some (c :: t) := by
  simp only [isFillerChar, Bool.or_eq_false_iff, decide_eq_false_iff_not] at hc
  obtain ⟨⟨⟨hblank, hnewline⟩, hreturn⟩, hmark⟩ := hc
  simp [skipLines, hnewline, hreturn, hmark, hblank]

theorem Filler.skipLines_eq_cons (h : Filler s (c :: t)) (hc : isFillerChar c = false) :
    skipLines false s = some (c :: t) :=
  h.skipLines_eq.trans (skipLines_cons hc t)

/-! ### Strings and keys -/

theorem Escape.length_lt (h : Escape s c t) : t.length < s.length := by
  obtain ⟨w, rfl, -, hw⟩ := h.exists_append
  rw [List.length_append]
  omega

theorem Short.length_lt (h : Short q s v t) : t.length < s.length := by
  induction h with
  | close => exact Nat.lt_succ_self _
  | char _ _ _ _ ih => exact Nat.lt_succ_of_lt ih
  | escape _ hc _ ih => exact Nat.lt_succ_of_lt (Nat.lt_trans ih hc.length_lt)

theorem Long.length_lt (h : Long q run s v t) : t.length < s.length := by
  induction h with
  | close =>
    simp only [List.length_cons]
    omega
  | quote _ _ ih | char _ _ _ _ ih => exact Nat.lt_succ_of_lt ih
  | escape _ hc _ ih => exact Nat.lt_succ_of_lt (Nat.lt_trans ih hc.length_lt)

theorem StringAt.length_lt (h : StringAt s v t) : t.length < s.length := by
  cases h with
  | short _ h | long _ h | lines _ h =>
    have := h.length_lt
    simp only [List.length_cons]
    omega

theorem isFillerChar_of_isQuote (hq : IsQuote q) : isFillerChar q = false := by
  rcases hq with rfl | rfl <;> rfl

theorem isFillerChar_of_class {p : Char → Bool} (hc : p c)
    (hp : ∀ d ∈ [' ', '\t', '\n', '\r', '#'], p d = false) : isFillerChar c = false := by
  have hne : ∀ d ∈ [' ', '\t', '\n', '\r', '#'], c ≠ d := fun d hd => ne_of_class hc (hp d hd)
  simp only [List.forall_mem_cons] at hne
  simp [isFillerChar, isBlankChar, hne]

theorem run_of_isBareKey (hk : isBareKey k) : Run isKeyChar k := by
  simpa [isBareKey, Run] using hk

/-- A key begins with a character that begins nothing else in its place. -/
theorem KeyAt.exists_cons (h : KeyAt s k t) :
    ∃ c u, s = c :: u ∧ isFillerChar c = false ∧ c ≠ '[' ∧ c ≠ '}' := by
  cases h with
  | bare hk =>
    obtain ⟨hne, hchars⟩ := run_of_isBareKey hk
    obtain ⟨c, k, rfl⟩ := List.exists_cons_of_ne_nil hne
    have hc := hchars c List.mem_cons_self
    exact ⟨c, k ++ t, rfl, isFillerChar_of_class hc (by decide), ne_of_class hc (by decide),
      ne_of_class hc (by decide)⟩
  | quoted hq =>
    refine ⟨_, _, rfl, isFillerChar_of_isQuote hq, ?_, ?_⟩ <;> rcases hq with rfl | rfl <;> decide

theorem KeyAt.length_lt (h : KeyAt s k t) : t.length < s.length := by
  cases h with
  | bare hk =>
    have hpos := List.length_pos_iff.2 (run_of_isBareKey hk).1
    rw [List.length_append]
    omega
  | quoted _ h => exact Nat.lt_succ_of_lt h.length_lt

theorem KeyAt.readKeyPart_eq (h : KeyAt s k t) : readKeyPart s = some (k, t) := by
  cases h with
  | bare hk ht =>
    have hrun := run_of_isBareKey hk
    have htake := takeWhile_append hrun.2 ht
    obtain ⟨c, k, rfl⟩ := List.exists_cons_of_ne_nil hrun.1
    have hc := hrun.2 c List.mem_cons_self
    rw [readKeyPart]
    · simp only [htake, List.drop_left]
      rfl
    · rintro r h
      exact ne_of_class hc (by decide) (List.cons.inj h).1
    · rintro r h
      exact ne_of_class hc (by decide) (List.cons.inj h).1
  | quoted hq h =>
    rcases hq with rfl | rfl
    · exact h.readBasic_eq
    · exact h.readLiteral_eq

/-- A key of one part, with blanks on both sides. -/
theorem KeyAt.readKey_eq (hk : KeyAt s₁ k s₂) (h₁ : Blanks s s₁) (h₂ : Blanks s₂ (c :: t))
    (hblank : isBlankChar c = false) (hdot : c ≠ '.') : readKey s = some (([], k), c :: t) := by
  have hskip : skipBlanks s = s₁ := by
    obtain ⟨d, u, rfl, hd, -⟩ := hk.exists_cons
    exact h₁.skipBlanks_eq_cons (isBlankChar_of_filler hd)
  have hparts : readParts maxDepth s = some ([k], c :: t) := by
    rw [maxDepth, readParts, hskip, hk.readKeyPart_eq]
    simp [h₂.skipBlanks_eq_cons hblank, hdot]
  rw [readKey, hparts]
  rfl

end Oxidize.Toml
