import Oxidize.Proofs.Text.Run

/-!
# Nested brackets

A text is well nested if every bracket closes the innermost one that is open. `nest` reads a text
with the brackets that are open, the innermost first, and fails at a bracket that does not fit.

What is open below is not read (`nest_weaken`), unless the text closes it. A text is `Confined` if it
closes no parenthesis around it and leaves none open, like one without parentheses. In parentheses a
confined text is well nested on its own (`Confined.nested_of_nest`).
-/

namespace Oxidize.Text

/-- Whether a character is an opening bracket. -/
def isOpening (c : Char) : Bool :=
  c = '(' || c = '[' || c = '{'

/-- The bracket that a closing bracket closes. -/
def partner? (c : Char) : Option Char :=
  if c = ')' then some '(' else if c = ']' then some '[' else if c = '}' then some '{' else none

/-- Whether a character is a bracket. -/
def isBracket (c : Char) : Bool :=
  isOpening c || (partner? c).isSome

/-- The open brackets behind a character. -/
def turn (c : Char) (s : List Char) : Option (List Char) :=
  if isOpening c then some (c :: s)
  else
    match partner? c with
    | none => some s
    | some o => if s.head? = some o then some s.tail else none

/-- The open brackets behind a text. -/
def nest : Text → List Char → Option (List Char)
  | [], s => some s
  | c :: r, s => (turn c s).bind (nest r)

/-- The brackets of a text are well nested. -/
def Nested (t : Text) : Prop :=
  nest t [] = some []

instance (t : Text) : Decidable (Nested t) :=
  inferInstanceAs (Decidable (nest t [] = some []))

variable {c : Char} {s s' z : List Char} {t u v w : Text}

@[simp] theorem nest_nil (s : List Char) : nest [] s = some s := rfl

@[simp] theorem nest_cons (c : Char) (r : Text) (s : List Char) :
    nest (c :: r) s = (turn c s).bind (nest r) := rfl

theorem nest_singleton (c : Char) (s : List Char) : nest [c] s = turn c s := by
  rw [nest_cons]
  cases turn c s <;> rfl

@[simp] theorem nest_append (u v : Text) (s : List Char) :
    nest (u ++ v) s = (nest u s).bind (nest v) := by
  induction u generalizing s with
  | nil => rfl
  | cons c u ih => cases h : turn c s <;> simp [h, ih]

/-! ### Single characters -/

theorem turn_of_isOpening (hc : isOpening c) (s : List Char) : turn c s = some (c :: s) :=
  if_pos hc

theorem turn_of_not_isBracket (hc : isBracket c = false) (s : List Char) : turn c s = some s := by
  rw [isBracket, Bool.or_eq_false_iff, Option.isSome_eq_false_iff, Option.isNone_iff_eq_none] at hc
  rw [turn, if_neg (by simp [hc.1]), hc.2]

theorem partner?_eq_some {o : Char} (h : partner? c = some o) :
    (c = ')' ∧ o = '(') ∨ (c = ']' ∧ o = '[') ∨ (c = '}' ∧ o = '{') := by
  simp only [partner?] at h
  grind

theorem turn_partner {o : Char} (h : partner? c = some o) (s : List Char) :
    turn c (o :: s) = some s := by
  rcases partner?_eq_some h with ⟨rfl, rfl⟩ | ⟨rfl, rfl⟩ | ⟨rfl, rfl⟩ <;> rfl

/-- All that a character can do: open, close what is open, or be no bracket. -/
theorem turn_spec (h : turn c s = some s') :
    (isOpening c ∧ s' = c :: s) ∨ (∃ o, partner? c = some o ∧ s = o :: s') ∨
      (isBracket c = false ∧ s' = s) := by
  rw [turn] at h
  split at h
  · rename_i hc
    exact .inl ⟨hc, (Option.some.inj h).symm⟩
  · rename_i hc
    cases hpartner : partner? c with
    | none =>
      simp only [hpartner, Option.some.injEq] at h
      exact .inr (.inr ⟨by simp [isBracket, hc, hpartner], h.symm⟩)
    | some o =>
      obtain ⟨hhead, rfl⟩ : s.head? = some o ∧ s.tail = s' := by simpa [hpartner] using h
      obtain ⟨r, rfl⟩ := List.head?_eq_some_iff.1 hhead
      exact .inr (.inl ⟨o, rfl, rfl⟩)

/-- A closing parenthesis needs an opening one. -/
theorem eq_cons_of_turn_closing (h : turn ')' s = some s') : s = '(' :: s' := by
  rcases turn_spec h with ⟨hc, -⟩ | ⟨o, ho, rfl⟩ | ⟨hc, -⟩
  · cases hc
  · rw [← Option.some.inj ho]
  · cases hc

/-! ### Only brackets count -/

/-- The brackets of a text. -/
def skeleton (t : Text) : Text :=
  t.filter isBracket

@[simp] theorem skeleton_append (t u : Text) : skeleton (t ++ u) = skeleton t ++ skeleton u :=
  List.filter_append t u

theorem skeleton_cons (c : Char) (t : Text) :
    skeleton (c :: t) = if isBracket c then c :: skeleton t else skeleton t :=
  List.filter_cons

theorem nest_skeleton (t : Text) (s : List Char) : nest (skeleton t) s = nest t s := by
  induction t generalizing s with
  | nil => rfl
  | cons c t ih =>
    rw [skeleton_cons, nest_cons]
    split
    · rw [nest_cons]
      congr 1
      exact funext ih
    · rename_i hc
      rw [turn_of_not_isBracket (Bool.eq_false_iff.2 hc), Option.bind_some, ih]

/-- Texts with the same brackets open and close the same. -/
theorem nest_congr (h : skeleton t = skeleton u) (s : List Char) : nest t s = nest u s := by
  rw [← nest_skeleton t, h, nest_skeleton]

theorem nested_congr (h : skeleton t = skeleton u) : Nested t ↔ Nested u := by
  rw [Nested, Nested, nest_congr h]

theorem skeleton_of_not_isBracket (ht : ∀ c ∈ t, isBracket c = false) : skeleton t = [] :=
  List.filter_eq_nil_iff.2 fun c hc => Bool.eq_false_iff.1 (ht c hc)

theorem isBracket_of_isSpace (hc : isSpace c) : isBracket c = false := by
  have hmem : c ∉ "()[]\x7b\x7d".toList := not_mem_of_isSpace (by decide) hc
  have hne : c ≠ '(' ∧ c ≠ ')' ∧ c ≠ '[' ∧ c ≠ ']' ∧ c ≠ '{' ∧ c ≠ '}' := by simpa using hmem
  simp [isBracket, isOpening, partner?, hne]

theorem Gap.skeleton_eq (ht : Gap t) : skeleton t = [] :=
  skeleton_of_not_isBracket fun c hc => isBracket_of_isSpace (ht c hc)

/-! ### What is open below -/

theorem turn_weaken (h : turn c s = some s') (z : List Char) : turn c (s ++ z) = some (s' ++ z) := by
  rcases turn_spec h with ⟨hc, rfl⟩ | ⟨o, ho, rfl⟩ | ⟨hc, rfl⟩
  · exact turn_of_isOpening hc (s ++ z)
  · exact turn_partner ho (s' ++ z)
  · exact turn_of_not_isBracket hc (s' ++ z)

/-- What is open below is not read. -/
theorem nest_weaken (h : nest t s = some s') (z : List Char) : nest t (s ++ z) = some (s' ++ z) := by
  induction t generalizing s with
  | nil => simpa using h
  | cons c t ih =>
    obtain ⟨s₁, hs₁, h⟩ := Option.bind_eq_some_iff.1 h
    rw [nest_cons, turn_weaken hs₁, Option.bind_some, ih h]

theorem Nested.nest (h : Nested t) (s : List Char) : nest t s = some s :=
  nest_weaken h s

/-- A text whose brackets fit opens nothing exactly if it is well nested on its own. -/
theorem nested_iff_of_nest (h : nest t s = some []) : Nested t ↔ s = [] := by
  constructor
  · intro ht
    rw [ht.nest, Option.some.injEq] at h
    exact h
  · rintro rfl
    exact h

theorem Nested.append (hu : Nested u) (hv : Nested v) : Nested (u ++ v) := by
  rw [Nested, nest_append, hu, Option.bind_some, hv]

/-! ### Texts in parentheses -/

/-- Whatever else is open inside of a parenthesis, the text neither closes it nor leaves a further
one open. -/
def Confined (t : Text) : Prop :=
  ∀ u s v, '(' ∉ u → nest t (u ++ '(' :: s) = some v →
    ∃ u', '(' ∉ u' ∧ v = u' ++ '(' :: s ∧ nest t u = some u'

theorem confined_nil : Confined [] := by
  intro u s v hu h
  obtain rfl := Option.some.inj h
  exact ⟨u, hu, rfl, rfl⟩

theorem Confined.append (ht : Confined t) (hw : Confined w) : Confined (t ++ w) := by
  intro u s v hu h
  rw [nest_append, Option.bind_eq_some_iff] at h
  obtain ⟨v₁, hv₁, h⟩ := h
  obtain ⟨u₁, hu₁, rfl, hnest⟩ := ht u s v₁ hu hv₁
  obtain ⟨u₂, hu₂, rfl, hnest'⟩ := hw u₁ s v hu₁ h
  exact ⟨u₂, hu₂, rfl, by rw [nest_append, hnest, Option.bind_some, hnest']⟩

theorem confined_singleton (hopening : c ≠ '(') (hclosing : c ≠ ')') : Confined [c] := by
  intro u s v hu h
  rw [nest_singleton] at h
  simp only [nest_singleton]
  rcases turn_spec h with ⟨hc, rfl⟩ | ⟨o, ho, heq⟩ | ⟨hc, rfl⟩
  · exact ⟨c :: u, by simp [hu, Ne.symm hopening], rfl, turn_of_isOpening hc u⟩
  · cases u with
    | nil =>
      -- The parenthesis is closed by its partner only.
      obtain ⟨rfl, -⟩ := List.cons.inj heq
      rcases partner?_eq_some ho with ⟨rfl, -⟩ | ⟨-, ho⟩ | ⟨-, ho⟩
      · exact absurd rfl hclosing
      · cases ho
      · cases ho
    | cons b u =>
      obtain ⟨rfl, rfl⟩ := List.cons.inj heq
      exact ⟨u, fun h => hu (List.mem_cons_of_mem b h), rfl, turn_partner ho u⟩
  · exact ⟨u, hu, rfl, turn_of_not_isBracket hc u⟩

theorem confined_of_not_mem (hopening : '(' ∉ t) (hclosing : ')' ∉ t) : Confined t := by
  induction t with
  | nil => exact confined_nil
  | cons c t ih =>
    rw [List.mem_cons, not_or] at hopening hclosing
    exact (confined_singleton (Ne.symm hopening.1) (Ne.symm hclosing.1)).append
      (ih hopening.2 hclosing.2)

/-- In parentheses a confined text is well nested on its own. -/
theorem Confined.nested_of_nest (ht : Confined t) (h : nest ('(' :: (t ++ [')'])) s = some s') :
    s' = s ∧ Nested t := by
  have hopen : turn '(' s = some ('(' :: s) := turn_of_isOpening rfl s
  rw [nest_cons, hopen, Option.bind_some, nest_append, Option.bind_eq_some_iff] at h
  obtain ⟨v, hv, h⟩ := h
  obtain ⟨u, hu, rfl, hnest⟩ := ht [] s v List.not_mem_nil hv
  rw [nest_singleton] at h
  have hclosed := eq_cons_of_turn_closing h
  cases u with
  | nil => exact ⟨(List.cons.inj hclosed).2.symm, hnest⟩
  | cons b u =>
    obtain ⟨rfl, -⟩ := List.cons.inj hclosed
    exact absurd List.mem_cons_self hu

/-- A confined text that is not well nested cannot stand in parentheses. -/
theorem Confined.nest_parentheses (ht : Confined t) (s : List Char) :
    nest ('(' :: (t ++ [')'])) s = if Nested t then some s else none := by
  have hopen : turn '(' s = some ('(' :: s) := turn_of_isOpening rfl s
  split
  · rename_i hnested
    rw [nest_cons, hopen, Option.bind_some, nest_append, hnested.nest]
    rfl
  · rename_i hnested
    cases h : nest ('(' :: (t ++ [')'])) s with
    | none => rfl
    | some s' => exact absurd (ht.nested_of_nest h).2 hnested

theorem Confined.parentheses (ht : Confined t) : Confined ('(' :: (t ++ [')'])) := by
  intro u s v hu h
  obtain ⟨rfl, hnested⟩ := ht.nested_of_nest h
  exact ⟨u, hu, rfl, by rw [ht.nest_parentheses, if_pos hnested]⟩

end Oxidize.Text
