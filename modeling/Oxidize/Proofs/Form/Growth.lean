import Oxidize.Proofs.Form.Inline

/-!
# Forms that only add

A measure of texts that is a sum over their pieces tells whether forms changed a text. If no form
takes anything away from it and some form adds to it wherever it matches, then a text that measures
no more than before had no matches of that form (`find?_eq_none_of_le`). For the inline forms such
a measure is how many dots and double quotes a text holds.
-/

namespace Oxidize.Form

variable {μ : Text → Nat} {f : Form} {fs : List Form} {t : Text}

/-- The measure of a text is that of its pieces. -/
def Additive (μ : Text → Nat) : Prop :=
  ∀ t u, μ (t ++ u) = μ t + μ u

/-- The form takes nothing away. -/
def Keeps (f : Form) (μ : Text → Nat) : Prop :=
  ∀ x y, f.Recasts x y → μ x ≤ μ y

/-- The form adds something wherever it matches, and it matches no empty text. -/
def Adds (f : Form) (μ : Text → Nat) : Prop :=
  ∀ x y, f.Recasts x y → x ≠ [] ∧ μ x < μ y

theorem le_replaceFrom (hμ : Additive μ) (hf : f.Keeps μ) (before : Option Char) (t : Text) :
    μ t ≤ μ (f.pattern.replaceFrom f.expand 0 before t) := by
  have hnil := hμ [] []
  rw [List.append_nil] at hnil
  have hwalk : μ t ≤ μ ([] ++ f.pattern.replaceFrom f.expand 0 before t) + μ [] := by
    refine Pattern.replaceFrom_induction (fun done r => μ t ≤ μ done + μ r) ?_ ?_ (by omega)
    · intro done c r h
      have hc := hμ [c] r
      rw [List.singleton_append] at hc
      rw [hμ]
      omega
    · intro done x r m hm h
      have hx := hf x (f.expand m) ⟨m, hm, rfl⟩
      rw [hμ] at h ⊢
      omega
  rw [List.nil_append] at hwalk
  omega

theorem le_recastAll (hμ : Additive μ) (hf : f.Keeps μ) (t : Text) : μ t ≤ μ (f.recastAll t) :=
  le_replaceFrom hμ hf none t

theorem le_recastWith (hμ : Additive μ) (hfs : ∀ f ∈ fs, f.Keeps μ) (t : Text) :
    μ t ≤ μ (recastWith fs t) := by
  induction fs generalizing t with
  | nil => exact Nat.le_refl _
  | cons f fs ih =>
    rw [List.forall_mem_cons] at hfs
    exact Nat.le_trans (le_recastAll hμ hfs.1 t) (ih hfs.2 (f.recastAll t))

theorem Adds.keeps (hf : f.Adds μ) : f.Keeps μ :=
  fun x y hxy => Nat.le_of_lt (hf x y hxy).2

theorem lt_recastAll (hμ : Additive μ) (hf : f.Adds μ) {m : Match Field}
    (hm : f.pattern.find? t = some m) : μ t < μ (f.recastAll t) := by
  have hsolid : f.pattern.Solid := fun u fs hu => (hf u _ ⟨⟨m.stop, fs⟩, hu, rfl⟩).1
  obtain ⟨a, x, r, rfl, hreads, heq⟩ :=
    Pattern.replaceFrom_of_findFrom? f.expand hsolid hm
  have hadds := (hf x (f.expand m) ⟨m, hreads, rfl⟩).2
  have hrest := le_replaceFrom hμ hf.keeps ((a ++ x).getLast?.or none) r
  rw [recastAll, Pattern.replaceAll, heq, hμ, hμ, hμ, hμ]
  omega

/-- Forms that leave the measure of a text as it is find nothing in it, if each of them adds
wherever it matches. Forms of which it is known that they find nothing may be among them. -/
theorem find?_eq_none_of_le (hμ : Additive μ) (hkeeps : ∀ f ∈ fs, f.Keeps μ)
    (hfs : ∀ f ∈ fs, f.Adds μ ∨ f.pattern.find? t = none) (hle : μ (recastWith fs t) ≤ μ t) :
    ∀ f ∈ fs, f.pattern.find? t = none := by
  induction fs with
  | nil => simp
  | cons f fs ih =>
    rw [List.forall_mem_cons] at hkeeps hfs ⊢
    rw [recastWith_cons] at hle
    have hnone : f.pattern.find? t = none := by
      rcases hfs.1 with hadds | hnone
      · cases hm : f.pattern.find? t with
        | none => rfl
        | some m =>
          -- What a match adds here, no later form takes away.
          have hlt := lt_recastAll hμ hadds hm
          have := le_recastWith hμ hkeeps.2 (f.recastAll t)
          omega
      · exact hnone
    rw [recastAll_eq_self hnone] at hle
    exact ⟨hnone, ih hkeeps.2 hfs.2 hle⟩

theorem recastWith_eq_self (hfs : ∀ f ∈ fs, f.pattern.find? t = none) : recastWith fs t = t := by
  induction fs with
  | nil => rfl
  | cons f fs ih =>
    rw [List.forall_mem_cons] at hfs
    rw [recastWith_cons, recastAll_eq_self hfs.1, ih hfs.2]

end Oxidize.Form

namespace Oxidize

open Text

/-! ### Dots and double quotes -/

/-- How many dots and double quotes a text holds. -/
def dotsAndQuotes (t : Text) : Nat :=
  t.count '.' + t.count '"'

@[simp] theorem dotsAndQuotes_append (t u : Text) :
    dotsAndQuotes (t ++ u) = dotsAndQuotes t + dotsAndQuotes u := by
  simp only [dotsAndQuotes, List.count_append]
  omega

theorem dotsAndQuotes_cons (c : Char) (t : Text) :
    dotsAndQuotes (c :: t) = (if c = '.' ∨ c = '"' then 1 else 0) + dotsAndQuotes t := by
  by_cases hdot : c = '.'
  · simp [dotsAndQuotes, hdot]
    omega
  · by_cases hquote : c = '"'
    · simp [dotsAndQuotes, hquote]
      omega
    · simp [dotsAndQuotes, hdot, hquote]

theorem dotsAndQuotes_of_gap {g : Text} (hg : Gap g) : dotsAndQuotes g = 0 := by
  simp [dotsAndQuotes, List.count_eq_zero.2 (hg.not_mem (c := '.') rfl),
    List.count_eq_zero.2 (hg.not_mem (c := '"') rfl)]

/-- The forms that always add a dot or a quote. -/
def Inline.growing : List Inline :=
  [printValue, length, rangeStep, rangeBetween, rangeTo]

variable {x y : Text}

theorem Inline.Turns.dotsAndQuotes_lt {i : Inline} (h : i.Turns x y) (hi : i ∈ growing) :
    dotsAndQuotes x < dotsAndQuotes y := by
  have gaps : ∀ {g}, Gap g → dotsAndQuotes g = 0 := dotsAndQuotes_of_gap
  cases h <;> simp [growing] at hi <;> simp +decide [dotsAndQuotes_cons, *] <;> omega

/-- Only the form of filled in format texts takes a dot away, that of the call it drops. -/
theorem Inline.Turns.dotsAndQuotes_le {i : Inline} (h : i.Turns x y) (hi : i ≠ .printFormat) :
    dotsAndQuotes x ≤ dotsAndQuotes y := by
  by_cases hgrowing : i ∈ growing
  · exact Nat.le_of_lt (h.dotsAndQuotes_lt hgrowing)
  · cases h <;> simp [growing] at hi hgrowing <;> simp +decide [dotsAndQuotes_cons]

theorem Membership.Turns.dotsAndQuotes_lt {m : Membership} (h : m.Turns x y) :
    dotsAndQuotes x < dotsAndQuotes y := by
  have gaps : ∀ {g}, Run isSpace g → dotsAndQuotes g = 0 := fun h => dotsAndQuotes_of_gap h.gap
  cases h <;> simp +decide [dotsAndQuotes_cons, *] <;> omega

theorem Inline.keeps_dotsAndQuotes {i : Inline} (hi : i ≠ .printFormat) :
    i.form.Keeps dotsAndQuotes :=
  fun _ _ hxy => (turns_of_recasts hxy).dotsAndQuotes_le hi

theorem Inline.adds_dotsAndQuotes {i : Inline} (hi : i ∈ growing) : i.form.Adds dotsAndQuotes := by
  intro x y hxy
  have hturns := turns_of_recasts hxy
  refine ⟨?_, hturns.dotsAndQuotes_lt hi⟩
  cases hturns <;> simp [growing] at hi ⊢

theorem Membership.adds_dotsAndQuotes (m : Membership) : m.form.Adds dotsAndQuotes := by
  intro x y hxy
  have hturns := turns_of_recasts hxy
  refine ⟨?_, hturns.dotsAndQuotes_lt⟩
  cases hturns <;> simp

end Oxidize
