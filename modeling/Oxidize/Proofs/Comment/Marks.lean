import Oxidize.Comment
import Oxidize.Proofs.Text.Run

/-!
# Quotes and the state of a scan

Whether a scan stands in code or in a literal behind a text without backslashes depends on the
quotes of the text alone (`Settled.after_eq_after_marks`). Two quotes of a kind side by side change
nothing (`Settled.after_two_quotes`).
-/

namespace Oxidize.Comment

open Text

variable {s : Quoting} {t u g : Text} {c : Char}

/-- The scan is not behind a backslash. -/
def Settled (s : Quoting) : Prop :=
  s = .code ∨ ∃ q, isQuote q ∧ s = .literal q

/-- The quotes of a text. -/
def marks (t : Text) : Text :=
  t.filter isQuote

@[simp] theorem marks_nil : marks [] = [] := rfl

@[simp] theorem marks_append (t u : Text) : marks (t ++ u) = marks t ++ marks u :=
  List.filter_append t u

theorem marks_cons (c : Char) (t : Text) :
    marks (c :: t) = if isQuote c then c :: marks t else marks t :=
  List.filter_cons

theorem marks_eq_nil (h : ∀ c ∈ t, isQuote c = false) : marks t = [] := by
  simpa [marks] using h

theorem settled_code : Settled .code :=
  .inl rfl

theorem Settled.next (hs : Settled s) (hc : c ≠ '\\') : Settled (s.next isQuote c) := by
  rcases hs with rfl | ⟨q, hq, rfl⟩
  · rw [Quoting.next]
    split
    · rename_i h
      exact .inr ⟨c, h, rfl⟩
    · exact .inl rfl
  · rw [Quoting.next, if_neg hc]
    split
    · exact .inl rfl
    · exact .inr ⟨q, hq, rfl⟩

theorem Settled.next_eq (hs : Settled s) (hc : c ≠ '\\') (hquote : isQuote c = false) :
    s.next isQuote c = s := by
  rcases hs with rfl | ⟨q, hq, rfl⟩
  · simp [Quoting.next, hquote]
  · have : c ≠ q := by
      rintro rfl
      simp [hq] at hquote
    simp [Quoting.next, hc, this]

theorem Settled.after (hs : Settled s) (ht : '\\' ∉ t) : Settled (s.after isQuote t) := by
  induction t generalizing s with
  | nil => exact hs
  | cons c t ih =>
    rw [List.mem_cons, not_or] at ht
    exact ih (hs.next (Ne.symm ht.1)) ht.2

theorem Settled.after_eq_after_marks (hs : Settled s) (ht : '\\' ∉ t) :
    s.after isQuote t = s.after isQuote (marks t) := by
  induction t generalizing s with
  | nil => rfl
  | cons c t ih =>
    rw [List.mem_cons, not_or] at ht
    rw [Quoting.after_cons, marks_cons]
    split
    · rw [Quoting.after_cons, ih (hs.next (Ne.symm ht.1)) ht.2]
    · rename_i hquote
      rw [hs.next_eq (Ne.symm ht.1) (by simpa using hquote), ih hs ht.2]

/-- Two double quotes side by side change nothing. -/
theorem Settled.after_two_quotes (hs : Settled s) (t : Text) :
    s.after isQuote ('"' :: '"' :: t) = s.after isQuote t := by
  rcases hs with rfl | ⟨q, hq, rfl⟩
  · rfl
  · simp only [isQuote, Bool.or_eq_true, decide_eq_true_eq] at hq
    rcases hq with rfl | rfl <;> rfl

/-- A run of characters that are no quotes. -/
theorem marks_of_forall {set : Char → Bool} (hset : set '"' = false ∧ set '\'' = false)
    (ht : ∀ c ∈ t, set c) : marks t = [] := by
  refine marks_eq_nil fun c hc => ?_
  cases h : isQuote c with
  | false => rfl
  | true =>
    have := ht c hc
    simp only [isQuote, Bool.or_eq_true, decide_eq_true_eq] at h
    rcases h with rfl | rfl <;> simp_all

theorem marks_of_gap (hg : Gap g) : marks g = [] :=
  marks_of_forall ⟨rfl, rfl⟩ hg

theorem Settled.after_gap (hs : Settled s) (hg : Gap g) : s.after isQuote g = s := by
  rw [hs.after_eq_after_marks (hg.not_mem rfl), marks_of_gap hg, Quoting.after_nil]

end Oxidize.Comment
