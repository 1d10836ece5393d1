import Oxidize.Proofs.Form.Growth
import Oxidize.Proofs.Line.Stages

/-!
# The quotes of format texts

Code without double quotes gets some where a value is printed: the form writes the format text
`"{}"` behind `println!(`. So every double quote stands directly behind `!(` or `{}`, and the later
forms for lengths and ranges keep it there. `Lead` is the scan that tells where a double quote may
stand.

That is why no interpolated text is found in such code: only the forms in `Inline.growing` change it
(`expressions_of_not_mem`).
-/

namespace Oxidize

open Pattern Text

/-- What has just been read: the first character of `!(` or `{}`, the whole, or anything else. -/
inductive Lead
  | plain
  | bang
  | brace
  | format
  deriving DecidableEq

namespace Lead

/-- What has been read behind a character. -/
def step (s : Lead) (c : Char) : Lead :=
  if c = '!' then bang
  else if c = '{' then brace
  else if s = bang ∧ c = '(' ∨ s = brace ∧ c = '}' then format
  else plain

/-- What has been read behind a text. -/
def run (s : Lead) (t : Text) : Lead :=
  t.foldl step s

/-- Every double quote of the text stands directly behind `!(` or `{}`. -/
def Allows : Lead → Text → Prop
  | _, [] => True
  | s, c :: r => (c = '"' → s = format) ∧ (s.step c).Allows r

instance decidableAllows (s : Lead) : (t : Text) → Decidable (s.Allows t)
  | [] => inferInstanceAs (Decidable True)
  | c :: r =>
    have := decidableAllows (s.step c) r
    inferInstanceAs (Decidable ((c = '"' → s = format) ∧ (s.step c).Allows r))

variable {s : Lead} {c : Char} {g t u v : Text}

@[simp] theorem allows_append : s.Allows (u ++ v) ↔ s.Allows u ∧ (s.run u).Allows v := by
  induction u generalizing s with
  | nil => exact (iff_of_eq (true_and _)).symm
  | cons c u ih =>
    rw [List.cons_append, Allows, Allows, ih, and_assoc]
    rfl

theorem allows_of_not_mem (ht : '"' ∉ t) (s : Lead) : s.Allows t := by
  induction t generalizing s with
  | nil => trivial
  | cons c t ih =>
    rw [List.mem_cons, not_or] at ht
    exact ⟨fun h => absurd h.symm ht.1, ih ht.2 _⟩

theorem step_plain_or (s : Lead) (c : Char) : plain.step c = plain ∨ plain.step c = s.step c := by
  by_cases hbang : c = '!'
  · exact .inr (by simp [step, hbang])
  by_cases hbrace : c = '{'
  · exact .inr (by simp [step, hbrace])
  · exact .inl (by simp [step, hbang, hbrace])

/-- Behind anything else no more is allowed than behind the first characters. -/
theorem Allows.behind (ht : plain.Allows t) (s : Lead) : s.Allows t := by
  induction t generalizing s with
  | nil => trivial
  | cons c t ih =>
    refine ⟨fun hc => (nomatch ht.1 hc), ?_⟩
    rcases step_plain_or s c with h | h
    · exact ih (h ▸ ht.2) _
    · exact h ▸ ht.2

theorem Allows.append (hu : plain.Allows u) (hv : plain.Allows v) : plain.Allows (u ++ v) :=
  allows_append.2 ⟨hu, hv.behind _⟩

theorem run_gap (hg : Gap g) : plain.run g = plain := by
  induction g with
  | nil => rfl
  | cons c g ih =>
    have hc : plain.step c = plain := by
      have hmem : c ∉ "!\x7b".toList := not_mem_of_isSpace (by decide) (hg c List.mem_cons_self)
      have hne : c ≠ '!' ∧ c ≠ '{' := by simpa using hmem
      simp [step, hne]
    rw [run, List.foldl_cons, hc]
    exact ih fun d hd => hg d (List.mem_cons_of_mem c hd)

@[simp] theorem run_length (s : Lead) : s.run "len(" = plain := by
  cases s <;> rfl

@[simp] theorem run_range (s : Lead) : s.run "range(" = plain := by
  cases s <;> rfl

@[simp] theorem run_comma (s : Lead) : s.run "," = plain := by
  cases s <;> rfl

@[simp] theorem run_closing (s : Lead) : s.run ")" = plain := by
  cases s <;> rfl

theorem step_format (c : Char) : format.step c = plain.step c := by
  simp [step]

/-- Behind a letter no double quote is allowed. -/
theorem not_allows_quote (s : Lead) (a r : Text) : ¬ s.Allows (a ++ 'f' :: '"' :: r) := by
  rw [allows_append]
  rintro ⟨-, -, h, -⟩
  cases hs : s.run a <;> rw [hs] at h <;> cases h rfl

end Lead

variable {s : Lead} {x y q t : Text}

/-- A form that adds dots or quotes puts none but the quotes of format texts in places where there
were none. -/
theorem Inline.Turns.allows {i : Inline} (h : i.Turns x y) (hi : i ∈ growing)
    (hx : s.Allows (x ++ q)) : s.Allows (y ++ q) := by
  have runs : ∀ {g}, Gap g → Lead.plain.run g = .plain := Lead.run_gap
  have bare {t : Text} (ht : '"' ∉ t) : Lead.plain.Allows t := Lead.allows_of_not_mem ht _
  cases h with
  | @printValue c arg hc harg =>
    have hquote : c ≠ '"' := by
      rintro rfl
      exact absurd hc (by decide)
    have hx' : s.run "println!(" = .format := by cases s <;> rfl
    have hy' : s.run "println!(\"\x7b\x7d\", " = .plain := by cases s <;> rfl
    have hopens : s.Allows "println!(\"\x7b\x7d\", " := by cases s <;> decide
    simp only [List.append_assoc, Lead.allows_append, hx', Lead.run_closing] at hx
    obtain ⟨-, ⟨-, harg⟩, -, hq⟩ := hx
    rw [Lead.step_format] at harg
    simp only [List.append_assoc, Lead.allows_append, hy', Lead.run_closing]
    exact ⟨hopens, ⟨fun h => absurd h hquote, harg⟩, Lead.allows_of_not_mem (by decide) _, hq⟩
  | length hg harg hg' =>
    simp only [List.append_assoc, Lead.allows_append, Lead.run_length, Lead.run_closing,
      runs hg] at hx
    obtain ⟨-, -, harg, -, -, hq⟩ := hx
    rw [List.append_assoc]
    exact (harg.append ((bare (by decide)).append hq)).behind s
  | rangeStep h₁ hlower h₂ h₃ hupper h₄ h₅ hstep h₆ =>
    simp only [List.append_assoc, Lead.allows_append, Lead.run_range, Lead.run_comma,
      Lead.run_closing, runs h₁, runs h₃, runs h₅] at hx
    obtain ⟨-, -, hlower, -, -, -, hupper, -, -, -, hstep, -, -, hq⟩ := hx
    simp only [List.append_assoc]
    exact (bare (t := "(") (by decide)).append (hlower.append ((bare (t := "..") (by decide)).append
      (hupper.append ((bare (t := ").step_by(") (by decide)).append (hstep.append
        ((bare (t := ")") (by decide)).append hq)))))) |>.behind s
  | rangeBetween h₁ hlower h₂ h₃ hupper h₄ =>
    simp only [List.append_assoc, Lead.allows_append, Lead.run_range, Lead.run_comma,
      Lead.run_closing, runs h₁, runs h₃] at hx
    obtain ⟨-, -, hlower, -, -, -, hupper, -, -, hq⟩ := hx
    simp only [List.append_assoc]
    exact (hlower.append ((bare (t := "..") (by decide)).append (hupper.append hq))).behind s
  | rangeTo h₁ hupper h₂ =>
    simp only [List.append_assoc, Lead.allows_append, Lead.run_range, Lead.run_closing,
      runs h₁] at hx
    obtain ⟨-, -, hupper, -, -, hq⟩ := hx
    rw [List.append_assoc]
    exact ((bare (t := "0..") (by decide)).append (hupper.append hq)).behind s
  | _ => simp [growing] at hi

/-- All double quotes of a text are those of format texts. -/
def Formatted (t : Text) : Prop :=
  Lead.plain.Allows t

theorem formatted_of_not_mem (ht : '"' ∉ t) : Formatted t :=
  Lead.allows_of_not_mem ht .plain

theorem Formatted.recastInline (is : List Inline) (his : ∀ i ∈ is, i ∈ Inline.growing)
    (ht : Formatted t) : Formatted (Form.recastWith (is.map Inline.form) t) := by
  refine Line.recastInline_preserves Formatted (fun i hi p x y q hxy h => ?_) ht
  rw [Formatted, Lead.allows_append] at h ⊢
  exact ⟨h.1, hxy.allows (his i hi) h.2⟩

/-- No interpolated text is found where all double quotes are those of format texts. -/
theorem Formatted.recastAll_interpolated (ht : Formatted t) :
    Inline.interpolated.form.recastAll t = t := by
  refine Form.recastAll_eq_self (Option.eq_none_iff_forall_ne_some.2 fun m hm => ?_)
  obtain ⟨a, x, r, rfl, hx⟩ := Form.exists_recasts_of_find? hm
  generalize Inline.interpolated.form.expand m = y at hx
  cases Inline.turns_of_recasts hx with
  | @interpolated body _ =>
    refine Lead.not_allows_quote .plain a (body ++ '"' :: r) ?_
    simpa [Formatted] using ht

/-- No format text is found where there are no double quotes. -/
theorem recastAll_format {i : Inline} (hi : i ∈ [Inline.printFormat, .printInterpolated])
    (ht : '"' ∉ t) : i.form.recastAll t = t := by
  refine Form.recastAll_eq_self (Option.eq_none_iff_forall_ne_some.2 fun m hm => ?_)
  obtain ⟨a, x, r, rfl, hx⟩ := Form.exists_recasts_of_find? hm
  have hmem : '"' ∈ x := by
    generalize i.form.expand m = y at hx
    cases Inline.turns_of_recasts hx <;> simp at hi ⊢
  exact ht (List.mem_append_right a (List.mem_append_left r hmem))

/-- In code without double quotes only the forms apply that add dots or quotes. -/
theorem Line.expressions_of_not_mem (ht : '"' ∉ t) :
    expressions t = Form.recastWith (Inline.growing.map Inline.form) t := by
  have hformatted := (formatted_of_not_mem ht).recastInline Inline.growing fun _ h => h
  have hall : expressions t = Inline.interpolated.form.recastAll
      (Form.recastWith (Inline.growing.map Inline.form)
        (Inline.printInterpolated.form.recastAll (Inline.printFormat.form.recastAll t))) := rfl
  rw [hall, recastAll_format (by decide) ht, recastAll_format (by decide) ht,
    hformatted.recastAll_interpolated]

end Oxidize
