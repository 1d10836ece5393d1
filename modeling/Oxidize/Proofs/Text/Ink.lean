import Oxidize.Proofs.Text.Run

/-!
# Ink

The ink of a text is the text without its white space. Trimming and questions about the first and
the last character of a trimmed text are questions about ink, and ink is a homomorphism of texts.
-/

namespace Oxidize.Text

variable {t u g : Text} {c : Char}

/-- The characters of a text that are no white space. -/
def ink (t : Text) : Text :=
  t.filter fun c => !isSpace c

@[simp] theorem ink_nil : ink [] = [] := rfl

@[simp] theorem ink_append (t u : Text) : ink (t ++ u) = ink t ++ ink u :=
  List.filter_append t u

theorem ink_cons (c : Char) (t : Text) :
    ink (c :: t) = if isSpace c then ink t else c :: ink t := by
  cases h : isSpace c <;> simp [ink, h]

@[simp] theorem mem_ink : c ∈ ink t ↔ c ∈ t ∧ isSpace c = false := by
  simp [ink]

theorem Gap.ink_eq (h : Gap g) : ink g = [] := by
  simpa [ink, Gap] using h

/-- The ink of a text without its closing parentheses. -/
def core (t : Text) : Text :=
  (ink t).filter fun c => c ≠ ')'

@[simp] theorem core_nil : core [] = [] := rfl

@[simp] theorem core_append (t u : Text) : core (t ++ u) = core t ++ core u := by
  simp [core]

theorem core_cons (c : Char) (t : Text) :
    core (c :: t) = if isSpace c ∨ c = ')' then core t else c :: core t := by
  by_cases hs : isSpace c
  · simp [core, ink_cons, hs]
  · by_cases hc : c = ')' <;> simp_all [core, ink_cons]

theorem Gap.core_eq (h : Gap g) : core g = [] := by
  rw [core, h.ink_eq]
  rfl

theorem getD_ne {o : Option Char} {d : Char} (ho : o ≠ some c) (hd : d ≠ c) : o.getD d ≠ c := by
  cases o <;> simp_all

section Runs

variable {set : Char → Bool}

theorem Run.getLast?_ink_ne (ht : Run set t) (hc : set c = false) : (ink t).getLast? ≠ some c :=
  fun h => ht.not_mem hc (mem_ink.1 (List.mem_of_getLast? h)).1

theorem Run.head?_ink_ne (ht : Run set t) (hc : set c = false) : (ink t).head? ≠ some c :=
  fun h => ht.not_mem hc (mem_ink.1 (List.mem_of_head? h)).1

theorem Run.getLast?_core_ne (ht : Run set t) (hc : set c = false) :
    (core t).getLast? ≠ some c := by
  intro h
  have hmem := List.mem_of_getLast? h
  simp only [core, List.mem_filter, mem_ink] at hmem
  exact ht.not_mem hc hmem.1.1

end Runs

/-! ### Trimming -/

theorem trimStart_spec (t : Text) : ∃ g, Gap g ∧ t = g ++ trimStart t :=
  ⟨t.takeWhile isSpace, fun _ h => List.all_eq_true.1 (List.all_takeWhile) _ h,
    (List.takeWhile_append_dropWhile).symm⟩

theorem trimEnd_spec (t : Text) : ∃ g, Gap g ∧ t = trimEnd t ++ g := by
  induction t with
  | nil => exact ⟨[], gap_nil, rfl⟩
  | cons c r ih =>
    obtain ⟨g, hg, hr⟩ := ih
    rw [trimEnd_cons]
    split
    · rename_i h
      rw [h.1, List.nil_append] at hr
      exact ⟨c :: r, List.forall_mem_cons.2 ⟨h.2, hr ▸ hg⟩, rfl⟩
    · exact ⟨g, hg, by rw [List.cons_append, ← hr]⟩

/-- What stands behind the trimmed text. -/
theorem drop_length_trimEnd (t : Text) :
    Gap (t.drop t.trimEnd.length) ∧ trimEnd t ++ t.drop t.trimEnd.length = t := by
  obtain ⟨g, hg, ht⟩ := trimEnd_spec t
  have hdrop : t.drop t.trimEnd.length = g := by
    rw [congrArg (List.drop _) ht, List.drop_left]
  rw [hdrop]
  exact ⟨hg, ht.symm⟩

@[simp] theorem ink_trimStart (t : Text) : ink (trimStart t) = ink t := by
  obtain ⟨g, hg, ht⟩ := trimStart_spec t
  rw [congrArg ink ht, ink_append, hg.ink_eq, List.nil_append]

theorem mem_of_mem_trimStart (h : c ∈ trimStart t) : c ∈ t := by
  obtain ⟨g, -, ht⟩ := trimStart_spec t
  exact ht ▸ List.mem_append_right g h

theorem mem_of_mem_trim (h : c ∈ trim t) : c ∈ t := by
  obtain ⟨g, -, ht⟩ := trimEnd_spec (trimStart t)
  exact mem_of_mem_trimStart (ht ▸ List.mem_append_left g h)

theorem head?_trimStart (t : Text) : (trimStart t).head? = (ink t).head? := by
  induction t with
  | nil => rfl
  | cons c r ih =>
    cases h : isSpace c with
    | true => rw [ink_cons, if_pos h, ← ih, trimStart, List.dropWhile_cons_of_pos h, trimStart]
    | false => simp [ink_cons, trimStart, h]

theorem getLast?_trimEnd (t : Text) : (trimEnd t).getLast? = (ink t).getLast? := by
  induction t with
  | nil => rfl
  | cons c r ih =>
    rw [trimEnd_cons]
    have hr : trimEnd r = [] ↔ ink r = [] := by
      rw [← List.getLast?_eq_none_iff, ih, List.getLast?_eq_none_iff]
    cases h : isSpace c with
    | true =>
      by_cases hnil : trimEnd r = []
      · simp [hnil, hr.1 hnil, ink_cons, h]
      · simp [hnil, ink_cons, h, ← ih, List.getLast?_cons, List.getLast?_eq_some_getLast hnil]
    | false => simp [ink_cons, h, List.getLast?_cons, ih]

theorem trimStart_append_cons (hc : isSpace c = false) (t r : Text) :
    trimStart (t ++ c :: r) = trimStart t ++ c :: r := by
  induction t with
  | nil => simp [trimStart, hc]
  | cons d t ih =>
    simp only [trimStart, List.cons_append, List.dropWhile_cons] at ih ⊢
    split
    · exact ih
    · rfl

theorem trimEnd_append_cons (hc : isSpace c = false) (t r : Text) :
    trimEnd (t ++ c :: r) = t ++ c :: trimEnd r := by
  induction t with
  | nil => simp [trimEnd_cons, hc]
  | cons d t ih => simp [trimEnd_cons, ih]

theorem trimEnd_append_of_ne_nil (h : trimEnd t ≠ []) (u : Text) :
    trimEnd (u ++ t) = u ++ trimEnd t := by
  induction u with
  | nil => rfl
  | cons d u ih => simp [trimEnd_cons, ih, h]

theorem isBlank_append_of_gap (hg : Gap g) (t : Text) : isBlank (g ++ t) = isBlank t := by
  rw [isBlank, List.all_append, List.all_eq_true.2 hg, Bool.true_and, isBlank]

theorem isBlank_trimEnd (t : Text) : isBlank (trimEnd t) = isBlank t := by
  obtain ⟨g, hg, ht⟩ := trimEnd_spec t
  have hblank : isBlank t = isBlank (trimEnd t ++ g) := congrArg isBlank ht
  rw [hblank, isBlank, isBlank, List.all_append, List.all_eq_true.2 hg, Bool.and_true]

theorem head?_trim (t : Text) : (trim t).head? = (ink t).head? := by
  rw [← head?_trimStart, trim]
  cases ht : trimStart t with
  | nil => rfl
  | cons c r =>
    have hc : isSpace c = false := by
      have := List.head?_dropWhile_not isSpace t
      simp_all [trimStart]
    simp [trimEnd_cons, hc]

theorem getLast?_trim (t : Text) : (trim t).getLast? = (ink t).getLast? := by
  rw [trim, getLast?_trimEnd, ink_trimStart]

/-! ### Exchanging a piece of a text -/

section Exchange

variable {p x y q : Text}

/-- A piece that ends otherwise is not where the text ends. -/
theorem getLast?_exchange (hx : x ≠ []) (hlast : x.getLast? ≠ some c)
    (h : (p ++ (x ++ q)).getLast? = some c) : (p ++ (y ++ q)).getLast? = some c := by
  rw [List.getLast?_append, List.getLast?_append] at h ⊢
  cases hq : q.getLast? with
  | some d => simpa [hq] using h
  | none => simp_all [List.getLast?_eq_some_getLast hx]

theorem getLast?_exchange_ne (hx : x ≠ []) (hy : y ≠ [])
    (hlast : x.getLast? ≠ some c → y.getLast? ≠ some c)
    (h : (p ++ (x ++ q)).getLast? ≠ some c) : (p ++ (y ++ q)).getLast? ≠ some c := by
  rw [List.getLast?_append, List.getLast?_append] at h ⊢
  cases hq : q.getLast? with
  | some d => simpa [hq] using h
  | none => simp_all [List.getLast?_eq_some_getLast hx, List.getLast?_eq_some_getLast hy]

theorem head?_exchange (hx : x ≠ []) (hfirst : x.head? ≠ some c)
    (h : (p ++ (x ++ q)).head? = some c) : (p ++ (y ++ q)).head? = some c := by
  cases p with
  | nil =>
    obtain ⟨d, u, rfl⟩ := List.exists_cons_of_ne_nil hx
    exact absurd h hfirst
  | cons d p => exact h

theorem head?_exchange_ne (hy : y ≠ []) (hfirst : y.head? ≠ some c)
    (h : (p ++ (x ++ q)).head? ≠ some c) : (p ++ (y ++ q)).head? ≠ some c := by
  cases p with
  | nil =>
    obtain ⟨d, u, rfl⟩ := List.exists_cons_of_ne_nil hy
    exact hfirst
  | cons d p => exact h

end Exchange

end Oxidize.Text
