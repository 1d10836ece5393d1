import Mathlib.Data.List.Forall2
import Oxidize.Proofs.Layout.Surplus
import Oxidize.Proofs.Text.Nesting

/-!
# Surpluses in parentheses

`Ledger` is a scan that keeps the surplus of square brackets and braces in each open parenthesis and
marks the parentheses behind a `y`. A text is `Flawed` if a marked parenthesis closes with a surplus.
Where the brackets fit, the surplus in a parenthesis is the number of the brackets that are open in
it (`Layers`), so no flawed text is well nested (`not_nested_of_flawed`).
-/

namespace Oxidize.Text

variable {c : Char} {s s' : List Char} {t w : Text}

/-- What a character adds to the surplus of square brackets and braces. -/
def angular (c : Char) : Int :=
  Layout.Delimiter.square.weight c + Layout.Delimiter.curly.weight c

/-- The surplus of square brackets and braces in a text. -/
def angularSum (t : Text) : Int :=
  Layout.Delimiter.square.surplus t + Layout.Delimiter.curly.surplus t

@[simp] theorem angularSum_nil : angularSum [] = 0 := rfl

@[simp] theorem angularSum_cons (c : Char) (t : Text) :
    angularSum (c :: t) = angular c + angularSum t := by
  simp only [angularSum, angular, Layout.Delimiter.surplus_cons]
  omega

@[simp] theorem angularSum_append (t u : Text) :
    angularSum (t ++ u) = angularSum t + angularSum u := by
  simp only [angularSum, Layout.Delimiter.surplus_append]
  omega

/-- Where a scan stands: whether a `y` has just been read, the surplus in the innermost open
parenthesis, for each parenthesis whether it is marked and the surplus around it, and whether a
marked one has closed with a surplus. -/
structure Ledger where
  marks : Bool
  surplus : Int
  outer : List (Bool × Int)
  flawed : Bool

namespace Ledger

/-- The scan at the start of a text. -/
def start : Ledger :=
  ⟨false, 0, [], false⟩

/-- The scan behind a closing parenthesis. -/
def close (L : Ledger) : Ledger :=
  match L.outer with
  | [] => { L with marks := false }
  | (marked, around) :: outer =>
    ⟨false, around + L.surplus, outer, L.flawed || (marked && L.surplus ≠ 0)⟩

/-- The scan behind a character. -/
def step (L : Ledger) (c : Char) : Ledger :=
  if c = '(' then ⟨false, 0, (L.marks, L.surplus) :: L.outer, L.flawed⟩
  else if c = ')' then L.close
  else { L with marks := c = 'y', surplus := L.surplus + angular c }

/-- The scan behind a text. -/
def scan (L : Ledger) (t : Text) : Ledger :=
  t.foldl step L

variable {L M : Ledger}

@[simp] theorem scan_nil (L : Ledger) : L.scan [] = L := rfl

@[simp] theorem scan_cons (L : Ledger) (c : Char) (t : Text) :
    L.scan (c :: t) = (L.step c).scan t := rfl

@[simp] theorem scan_append (L : Ledger) (t u : Text) : L.scan (t ++ u) = (L.scan t).scan u :=
  List.foldl_append

theorem step_opening (L : Ledger) :
    L.step '(' = ⟨false, 0, (L.marks, L.surplus) :: L.outer, L.flawed⟩ := rfl

theorem step_closing (L : Ledger) : L.step ')' = L.close := rfl

theorem step_other (hopening : c ≠ '(') (hclosing : c ≠ ')') (L : Ledger) :
    L.step c = { L with marks := c = 'y', surplus := L.surplus + angular c } := by
  rw [step, if_neg hopening, if_neg hclosing]

/-! ### A flaw stays -/

theorem flawed_step (h : L.flawed) (c : Char) : (L.step c).flawed := by
  rw [step]
  split
  · exact h
  · split
    · rw [close]
      split
      · exact h
      · simp [h]
    · exact h

theorem flawed_scan (h : L.flawed) (t : Text) : (L.scan t).flawed := by
  induction t generalizing L with
  | nil => exact h
  | cons c t ih => exact ih (flawed_step h c)

/-- The second scan has the same surpluses, and it has all marks and flaws of the first one. -/
structure Le (L M : Ledger) : Prop where
  marks : L.marks → M.marks
  surplus : L.surplus = M.surplus
  outer : List.Forall₂ (fun a b => (a.1 → b.1) ∧ a.2 = b.2) L.outer M.outer
  flawed : L.flawed → M.flawed

theorem Le.close (h : L.Le M) : L.close.Le M.close := by
  rcases L with ⟨marks, surplus, outer, flawed⟩
  rcases M with ⟨marks', surplus', outer', flawed'⟩
  obtain ⟨-, rfl, houter, hflawed⟩ := h
  cases houter with
  | nil => exact ⟨id, rfl, .nil, hflawed⟩
  | @cons a b _ _ hab houter =>
    obtain ⟨hmarked, haround⟩ := hab
    refine ⟨id, congrArg (· + surplus) haround, houter, ?_⟩
    simp only [Ledger.close, Bool.or_eq_true, Bool.and_eq_true]
    exact Or.imp hflawed (And.imp_left hmarked)

theorem Le.step (h : L.Le M) (c : Char) : (L.step c).Le (M.step c) := by
  rw [Ledger.step, Ledger.step]
  split
  · exact ⟨id, rfl, .cons ⟨h.marks, h.surplus⟩ h.outer, h.flawed⟩
  · split
    · exact h.close
    · exact ⟨id, congrArg (· + angular c) h.surplus, h.outer, h.flawed⟩

theorem Le.scan (h : L.Le M) (t : Text) : (L.scan t).Le (M.scan t) := by
  induction t generalizing L M with
  | nil => exact h
  | cons c t ih => exact ih (h.step c)

/-! ### Parentheses -/

theorem scan_of_not_mem (hopening : '(' ∉ w) (hclosing : ')' ∉ w) (L : Ledger) :
    ∃ marks, L.scan w = ⟨marks, L.surplus + angularSum w, L.outer, L.flawed⟩ := by
  induction w generalizing L with
  | nil => exact ⟨L.marks, by simp⟩
  | cons c w ih =>
    rw [List.mem_cons, not_or] at hopening hclosing
    obtain ⟨marks, hscan⟩ := ih hopening.2 hclosing.2 (L.step c)
    refine ⟨marks, ?_⟩
    rw [scan_cons, hscan, step_other (Ne.symm hopening.1) (Ne.symm hclosing.1), angularSum_cons,
      ← Int.add_assoc]

/-- A parenthesis without further ones inside. -/
theorem scan_group (hopening : '(' ∉ w) (hclosing : ')' ∉ w) (L : Ledger) :
    L.scan ('(' :: (w ++ [')'])) =
      ⟨false, L.surplus + angularSum w, L.outer,
        L.flawed || (L.marks && angularSum w ≠ 0)⟩ := by
  obtain ⟨marks, hscan⟩ := scan_of_not_mem hopening hclosing (L.step '(')
  rw [scan_cons, scan_append, hscan]
  simp [step_opening, step_closing, close]

/-! ### Layers -/

/-- The brackets that are open belong to the surpluses of a scan: up to the innermost parenthesis as
many as there are, and so on outwards. -/
inductive Layers : Int → List (Bool × Int) → List Char → Prop
  | ground {u : List Char} (hu : '(' ∉ u) : Layers u.length [] u
  | parenthesis {u s : List Char} {around : Int} {outer : List (Bool × Int)} (marked : Bool)
      (hu : '(' ∉ u) (h : Layers around outer s) :
      Layers u.length ((marked, around) :: outer) (u ++ '(' :: s)

theorem layers_start : Layers start.surplus start.outer [] :=
  .ground List.not_mem_nil

theorem Layers.cons {surplus : Int} {outer : List (Bool × Int)} (hc : c ≠ '(')
    (h : Layers surplus outer s) : Layers (surplus + 1) outer (c :: s) := by
  have hmem {u : List Char} (hu : '(' ∉ u) : '(' ∉ c :: u := by simp [hu, Ne.symm hc]
  cases h with
  | ground hu => exact .ground (hmem hu)
  | parenthesis marked hu h => exact .parenthesis marked (hmem hu) h

theorem Layers.tail {surplus : Int} {outer : List (Bool × Int)} (hc : c ≠ '(')
    (h : Layers surplus outer (c :: s)) : Layers (surplus - 1) outer s := by
  have hless (u : List Char) : ((c :: u).length : Int) - 1 = u.length := by simp
  generalize hs : c :: s = w at h
  cases h with
  | ground hu =>
    subst hs
    rw [hless]
    exact .ground fun h => hu (List.mem_cons_of_mem c h)
  | @parenthesis u _ _ _ marked hu h =>
    cases u with
    | nil => exact absurd (List.cons.inj hs).1 hc
    | cons b u =>
      obtain ⟨rfl, rfl⟩ := List.cons.inj hs
      rw [hless]
      exact .parenthesis marked (fun h => hu (List.mem_cons_of_mem c h)) h

theorem Layers.surplus_eq {surplus : Int} (h : Layers surplus [] []) : surplus = 0 := by
  generalize hs : ([] : List Char) = w at h
  cases h with
  | ground _ => rw [← hs, List.length_nil, Int.natCast_zero]

/-- A parenthesis closes where only it is open. -/
theorem Layers.closed {surplus : Int} {outer : List (Bool × Int)}
    (h : Layers surplus outer ('(' :: s)) :
    surplus = 0 ∧ ∃ marked around outer', outer = (marked, around) :: outer' ∧
      Layers around outer' s := by
  generalize hs : '(' :: s = w at h
  cases h with
  | ground hu =>
    subst hs
    exact absurd List.mem_cons_self hu
  | @parenthesis u _ around outer' marked hu h =>
    cases u with
    | nil =>
      obtain ⟨-, rfl⟩ := List.cons.inj hs
      exact ⟨rfl, marked, around, outer', rfl, h⟩
    | cons b u =>
      obtain ⟨rfl, -⟩ := List.cons.inj hs
      exact absurd List.mem_cons_self hu

theorem angular_of_isOpening (hc : isOpening c) (hopening : c ≠ '(') : angular c = 1 := by
  have hkind : c = '[' ∨ c = '{' := by simpa [isOpening, hopening] using hc
  rcases hkind with rfl | rfl <;> rfl

theorem angular_of_partner {o : Char} (ho : partner? c = some o) (hclosing : c ≠ ')') :
    o ≠ '(' ∧ angular c = -1 := by
  rcases partner?_eq_some ho with ⟨rfl, -⟩ | ⟨rfl, rfl⟩ | ⟨rfl, rfl⟩
  · exact absurd rfl hclosing
  · decide
  · decide

theorem angular_of_not_isBracket (hc : isBracket c = false) : angular c = 0 := by
  have hne : ∀ d ∈ "[]\x7b\x7d".toList, c ≠ d := by
    rintro d hd rfl
    revert hc
    revert c
    decide
  simp [angular, Layout.Delimiter.weight, Layout.Delimiter.square, Layout.Delimiter.curly, hne]

theorem layers_step (hL : Layers L.surplus L.outer s) (h : turn c s = some s') :
    Layers (L.step c).surplus (L.step c).outer s' ∧ ((L.step c).flawed → L.flawed) := by
  by_cases hopening : c = '('
  · subst hopening
    obtain rfl : '(' :: s = s' := Option.some.inj h
    exact ⟨.parenthesis (u := []) L.marks List.not_mem_nil hL, id⟩
  by_cases hclosing : c = ')'
  · subst hclosing
    obtain rfl := eq_cons_of_turn_closing h
    obtain ⟨hsurplus, marked, around, outer, houter, hL⟩ := hL.closed
    rw [step_closing, close, houter, hsurplus]
    simpa using hL
  · rw [step_other hopening hclosing]
    refine ⟨?_, id⟩
    rcases turn_spec h with ⟨hc, rfl⟩ | ⟨o, ho, rfl⟩ | ⟨hc, rfl⟩
    · rw [angular_of_isOpening hc hopening]
      exact hL.cons hopening
    · obtain ⟨ho, hweight⟩ := angular_of_partner ho hclosing
      rw [hweight]
      exact hL.tail ho
    · rwa [angular_of_not_isBracket hc, Int.add_zero]

theorem layers_scan (hL : Layers L.surplus L.outer s) (h : nest t s = some s') :
    Layers (L.scan t).surplus (L.scan t).outer s' ∧ ((L.scan t).flawed → L.flawed) := by
  induction t generalizing L s with
  | nil =>
    obtain rfl := Option.some.inj h
    exact ⟨hL, id⟩
  | cons c t ih =>
    obtain ⟨s₁, hs₁, h⟩ := Option.bind_eq_some_iff.1 h
    obtain ⟨hL₁, hflawed⟩ := layers_step hL hs₁
    obtain ⟨hlayers, hflawed'⟩ := ih hL₁ h
    exact ⟨hlayers, hflawed ∘ hflawed'⟩

end Ledger

/-- A closing parenthesis behind a `y` has a surplus inside. -/
def Flawed (t : Text) : Prop :=
  (Ledger.start.scan t).flawed

theorem not_nested_of_flawed (h : Flawed t) : ¬ Nested t :=
  fun hnested => nomatch (Ledger.layers_scan Ledger.layers_start hnested).2 h

end Oxidize.Text
