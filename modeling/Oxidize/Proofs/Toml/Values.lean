import Oxidize.Proofs.Toml.Keys
import Oxidize.Proofs.Toml.Numbers
import Oxidize.Proofs.Toml.Outlines

/-!
# Values are read

The reader of values reads every value of the grammar and stops behind it (`readBy_valueAt`). The
induction is on how deep values may be nested: if a reader reads the values of a relation
(`ReadBy`), then elements and assignments of such values are read too.
-/

namespace Oxidize.Toml

variable {c : Char} {k s s₁ s₂ t v : Text} {n : Nat} {x : Value} {xs : List Value} {es : Table}
  {P Q : Text → Value → Text → Prop} {read : Text → Option (Value × Text)}

/-! ### Readers of values -/

/-- The reader reads the values of the relation, which begin with no blank, line end or comment and
are not empty. -/
structure ReadBy (P : Text → Value → Text → Prop) (read : Text → Option (Value × Text)) : Prop where
  read_eq : ∀ {s x t}, P s x t → read s = some (x, t)
  exists_cons : ∀ {s x t}, P s x t → ∃ c u, s = c :: u ∧ isFillerChar c = false ∧ c ≠ ']'
  length_lt : ∀ {s x t}, P s x t → t.length < s.length

section

variable (hP : ReadBy P read)

include hP

theorem AssignmentAt.readAssignment_eq (h₁ : Blanks s s₁) (h : AssignmentAt P s₁ k x t) :
    readAssignment read s = some (([], k, x), t) := by
  cases h with
  | mk hk h₂ h₃ hx =>
    obtain ⟨c, u, rfl, hc, -⟩ := hP.exists_cons hx
    have hskip := h₃.skipBlanks_eq_cons (isBlankChar_of_filler hc)
    rw [readAssignment, hk.readKey_eq h₁ h₂ (by decide) (by decide)]
    show (read (skipBlanks _)).bind _ = _
    rw [hskip, hP.read_eq hx]
    rfl

theorem AssignmentAt.length_lt (h : AssignmentAt P s k x t) : t.length < s.length := by
  cases h with
  | mk hk h₁ h₂ hx =>
    have hequals := h₁.length_le
    rw [List.length_cons] at hequals
    have := hk.length_lt
    have := h₂.length_le
    have := hP.length_lt hx
    omega

theorem length_lt_of_element (h₁ : Filler s s₁) (hx : P s₁ x s₂) (h₂ : Filler s₂ (c :: t)) :
    (c :: t).length < s.length :=
  Nat.lt_of_le_of_lt h₂.length_le (Nat.lt_of_lt_of_le (hP.length_lt hx) h₁.length_le)

theorem Elements.length_lt (h : Elements P s xs t) : t.length < s.length := by
  induction h with
  | close h => exact h.length_le
  | last h₁ hx h₂ => exact Nat.lt_of_succ_lt (length_lt_of_element hP h₁ hx h₂)
  | cons h₁ hx h₂ _ ih =>
    exact Nat.lt_trans ih (Nat.lt_of_succ_lt (length_lt_of_element hP h₁ hx h₂))

theorem Elements.readElements_eq (h : Elements P s xs t) (hn : s.length < n) :
    readElements read n s = some (xs, t) := by
  -- No filler begins a value, so the reader skips what stands in front of it and no more.
  have hvalue {s s₁ s₂ : Text} {x : Value} (h₁ : Filler s s₁) (hx : P s₁ x s₂) :
      ∃ c u, skipLines false s = some (c :: u) ∧ c ≠ ']' ∧ read (c :: u) = some (x, s₂) := by
    obtain ⟨c, u, rfl, hc, hbracket⟩ := hP.exists_cons hx
    exact ⟨c, u, h₁.skipLines_eq_cons hc, hbracket, hP.read_eq hx⟩
  induction h generalizing n with
  | close h =>
    cases n with
    | zero => cases hn
    | succ n =>
      rw [readElements, h.skipLines_eq_cons (by decide)]
      rfl
  | last h₁ hx h₂ =>
    cases n with
    | zero => cases hn
    | succ n =>
      obtain ⟨c, u, hskip, hbracket, hread⟩ := hvalue h₁ hx
      rw [readElements, hskip]
      simp [hbracket, hread, h₂.skipLines_eq_cons (by decide : isFillerChar ']' = false)]
  | @cons s s₁ s₂ s₃ t x xs h₁ hx h₂ h ih =>
    cases n with
    | zero => cases hn
    | succ n =>
      obtain ⟨c, u, hskip, hbracket, hread⟩ := hvalue h₁ hx
      have hlength : s₃.length < n := by
        have hbehind := length_lt_of_element hP h₁ hx h₂
        rw [List.length_cons] at hbehind
        omega
      rw [readElements, hskip]
      simp [hbracket, hread, h₂.skipLines_eq_cons (by decide : isFillerChar ',' = false),
        ih hlength]

theorem length_lt_of_entry (h₁ : Blanks s s₁) (ha : AssignmentAt P s₁ k x s₂)
    (h₂ : Blanks s₂ (c :: t)) : (c :: t).length < s.length :=
  Nat.lt_of_le_of_lt h₂.length_le (Nat.lt_of_lt_of_le (ha.length_lt hP) h₁.length_le)

theorem Entries.length_lt (h : Entries P s es t) : t.length < s.length := by
  induction h with
  | last h₁ ha h₂ => exact Nat.lt_of_succ_lt (length_lt_of_entry hP h₁ ha h₂)
  | cons h₁ ha h₂ _ ih =>
    exact Nat.lt_trans ih (Nat.lt_of_succ_lt (length_lt_of_entry hP h₁ ha h₂))

theorem Entries.readEntries_eq {o : Outline} (h : Entries P s es t)
    (hkeys : (o.toTable ++ es : Table).keys.Nodup) (hn : s.length < n) :
    readEntries read n o s = some (o.toTable ++ es, t) := by
  induction h generalizing n o with
  | last h₁ ha h₂ =>
    cases n with
    | zero => cases hn
    | succ n =>
      rw [readEntries, ha.readAssignment_eq hP h₁]
      simp [Outline.assign_of_not_mem (Outline.not_mem_keys hkeys),
        h₂.skipBlanks_eq_cons (by decide : isBlankChar '}' = false), Node.toValue]
  | @cons s s₁ s₂ s₃ t k x es h₁ ha h₂ h ih =>
    cases n with
    | zero => cases hn
    | succ n =>
      have hlength : s₃.length < n := by
        have hbehind := length_lt_of_entry hP h₁ ha h₂
        rw [List.length_cons] at hbehind
        omega
      have hrest := @ih n (o ++ [(k, .value x)]) (by simpa [Node.toValue] using hkeys) hlength
      rw [readEntries, ha.readAssignment_eq hP h₁]
      simp [Outline.assign_of_not_mem (Outline.not_mem_keys hkeys),
        h₂.skipBlanks_eq_cons (by decide : isBlankChar ',' = false), hrest, Node.toValue]

end

/-! ### Scalars -/

theorem StringAt.exists_cons (h : StringAt s v t) : ∃ q u, s = q :: u ∧ IsQuote q := by
  cases h with
  | short hq | long hq | lines hq => exact ⟨_, _, rfl, hq⟩

theorem exists_cons_ofNat (i : Nat) (t : Text) :
    ∃ c u, Text.ofNat i ++ t = c :: u ∧ isTokenChar c := by
  obtain ⟨c, u, hdigits⟩ := List.exists_cons_of_ne_nil (ofNat_ne_nil i)
  have hdigit : c.isDigit := isDigit_of_mem_ofNat (n := i) (by simp [hdigits])
  exact ⟨c, u ++ t, by rw [hdigits, List.cons_append],
    by simp [isTokenChar, Char.isAlphanum, hdigit]⟩

theorem exists_cons_flag (b : Bool) (t : Text) :
    ∃ c u, (if b then ("true" : Text) else "false") ++ t = c :: u ∧ isTokenChar c := by
  cases b with
  | true => exact ⟨'t', _, rfl, by decide⟩
  | false => exact ⟨'f', _, rfl, by decide⟩

/-- A string begins with a quote, every other scalar with a character of its token. -/
theorem ScalarAt.exists_cons (h : ScalarAt s x t) :
    ∃ c u, s = c :: u ∧ (IsQuote c ∨ isTokenChar c) := by
  cases h with
  | text h =>
    obtain ⟨q, u, hs, hq⟩ := h.exists_cons
    exact ⟨q, u, hs, .inl hq⟩
  | @natural i t =>
    obtain ⟨c, u, hs, hc⟩ := exists_cons_ofNat i t
    exact ⟨c, u, hs, .inr hc⟩
  | @boolean b t =>
    obtain ⟨c, u, hs, hc⟩ := exists_cons_flag b t
    exact ⟨c, u, hs, .inr hc⟩

theorem ScalarAt.length_lt (h : ScalarAt s x t) : t.length < s.length := by
  cases h with
  | text h => exact h.length_lt
  | @natural i =>
    have hpos := List.length_pos_iff.2 (ofNat_ne_nil i)
    rw [List.length_append]
    omega
  | @boolean b =>
    rw [List.length_append]
    have hpos : 0 < (if b then ("true" : Text) else "false").length := by
      cases b <;> decide
    omega

/-- A value that begins like a number or a word is a scalar. -/
theorem readValue_of_isTokenChar (hc : isTokenChar c) (t : Text) :
    readValue n (c :: t) = readScalar (c :: t) := by
  have hne : ∀ d ∈ ['"', '\'', '[', '{'], c ≠ d := by
    have hd : ∀ d ∈ ['"', '\'', '[', '{'], isTokenChar d = false := by decide
    exact fun d hmem => ne_of_class hc (hd d hmem)
  simp only [List.forall_mem_cons] at hne
  obtain ⟨hdouble, hsingle, hsquare, hcurly, -⟩ := hne
  rw [readValue.eq_def]
  simp only [hdouble, hsingle, hsquare, hcurly, or_self, if_false]

theorem StringAt.readValue_eq (h : StringAt s v t) : readValue n s = some (.text v, t) := by
  have hread := h.readString_eq
  obtain ⟨q, u, rfl, hq⟩ := h.exists_cons
  rw [readValue.eq_def]
  simp only [if_pos (show q = '"' ∨ q = '\'' from hq), hread]
  rfl

theorem ScalarAt.readValue_eq (h : ScalarAt s x t) : readValue n s = some (x, t) := by
  cases h with
  | text h => exact h.readValue_eq
  | @natural i t hi ht =>
    have hread := readScalar_ofNat hi ht
    obtain ⟨c, u, hs, hc⟩ := exists_cons_ofNat i t
    rw [hs] at hread ⊢
    exact (readValue_of_isTokenChar hc u).trans hread
  | @boolean b t ht =>
    have hread := readScalar_flag b ht
    obtain ⟨c, u, hs, hc⟩ := exists_cons_flag b t
    rw [hs] at hread ⊢
    exact (readValue_of_isTokenChar hc u).trans hread

theorem readBy_scalarAt (n : Nat) : ReadBy ScalarAt (readValue n) where
  read_eq := ScalarAt.readValue_eq
  length_lt := ScalarAt.length_lt
  exists_cons h := by
    obtain ⟨c, u, hs, hc⟩ := h.exists_cons
    rcases hc with hq | hc
    · refine ⟨c, u, hs, isFillerChar_of_isQuote hq, ?_⟩
      rcases hq with rfl | rfl <;> decide
    · exact ⟨c, u, hs, isFillerChar_of_class hc (by decide), ne_of_class hc (by decide)⟩

/-! ### Arrays and tables -/

theorem AssignmentAt.exists_cons (h : AssignmentAt P s k x t) :
    ∃ c u, s = c :: u ∧ isFillerChar c = false ∧ c ≠ '[' ∧ c ≠ '}' := by
  cases h with
  | mk hk => exact hk.exists_cons

/-- An inline table with entries is not taken for an empty one. -/
theorem Entries.trimmed (h : Entries P s es t) :
    Entries P (skipBlanks s) es t ∧ (skipBlanks s).head? ≠ some '}' := by
  have hskip {s s₁ s₂ k : Text} {x : Value} (h₁ : Blanks s s₁) (ha : AssignmentAt P s₁ k x s₂) :
      skipBlanks s = s₁ ∧ s₁.head? ≠ some '}' := by
    obtain ⟨c, u, rfl, hc, -, hne⟩ := ha.exists_cons
    exact ⟨h₁.skipBlanks_eq_cons (isBlankChar_of_filler hc), by simpa using hne⟩
  cases h with
  | last h₁ ha h₂ =>
    obtain ⟨heq, hne⟩ := hskip h₁ ha
    rw [heq]
    exact ⟨.last .nil ha h₂, hne⟩
  | cons h₁ ha h₂ h =>
    obtain ⟨heq, hne⟩ := hskip h₁ ha
    rw [heq]
    exact ⟨.cons .nil ha h₂ h, hne⟩

theorem CompoundAt.readValue_eq (hP : ReadBy P (readValue n))
    (h : CompoundAt P s x t) : readValue (n + 1) s = some (x, t) := by
  cases h with
  | @array s _ xs h =>
    have hread : readElements (readValue n) ('[' :: s).length s = some (xs, t) :=
      h.readElements_eq hP (Nat.lt_succ_self _)
    show (readElements (readValue n) ('[' :: s).length s).map _ = _
    rw [hread]
    rfl
  | empty h =>
    rw [readValue.eq_def]
    simp [h.skipBlanks_eq_cons (by decide)]
  | @table s _ es h hkeys =>
    obtain ⟨hentries, hne⟩ := h.trimmed
    have hlength : (skipBlanks s).length < ('{' :: s).length :=
      Nat.lt_succ_of_le (List.dropWhile_suffix _).length_le
    have hread := hentries.readEntries_eq hP (o := []) hkeys hlength
    rw [readValue.eq_def]
    simp only [Char.reduceEq, or_self, if_false, if_true]
    split
    · rename_i r hskip
      rw [hskip] at hne
      exact absurd rfl hne
    · rw [hread]
      rfl

theorem CompoundAt.exists_cons (h : CompoundAt P s x t) :
    ∃ c u, s = c :: u ∧ (c = '[' ∨ c = '{') := by
  cases h with
  | array => exact ⟨_, _, rfl, .inl rfl⟩
  | empty | table => exact ⟨_, _, rfl, .inr rfl⟩

theorem CompoundAt.length_lt (hP : ReadBy P (readValue n))
    (h : CompoundAt P s x t) : t.length < s.length := by
  cases h with
  | array h => exact Nat.lt_succ_of_lt (h.length_lt hP)
  | empty h => exact Nat.lt_succ_of_lt h.length_le
  | table h => exact Nat.lt_succ_of_lt (h.length_lt hP)

theorem ReadBy.compound (hP : ReadBy P (readValue n)) :
    ReadBy (CompoundAt P) (readValue (n + 1)) where
  read_eq h := h.readValue_eq hP
  length_lt h := h.length_lt hP
  exists_cons h := by
    obtain ⟨c, u, hs, hc⟩ := h.exists_cons
    refine ⟨c, u, hs, ?_⟩
    rcases hc with rfl | rfl <;> decide

theorem ReadBy.or (hP : ReadBy P read) (hQ : ReadBy Q read) :
    ReadBy (fun s x t => P s x t ∨ Q s x t) read where
  read_eq h := h.elim hP.read_eq hQ.read_eq
  exists_cons h := h.elim hP.exists_cons hQ.exists_cons
  length_lt h := h.elim hP.length_lt hQ.length_lt

/-- Values are read, with the reader for their depth. -/
theorem readBy_valueAt (n : Nat) : ReadBy (ValueAt n) (readValue n) := by
  induction n with
  | zero => exact readBy_scalarAt 0
  | succ n ih => exact (readBy_scalarAt (n + 1)).or ih.compound

end Oxidize.Toml
