import Oxidize.Layout.Balance
import Oxidize.Proofs.Text.Run

/-!
# The surplus of brackets

The surplus of a kind of brackets in a text is how often it opens more than it closes, in literals
and comments too. It is the sum of the weights of the characters.
-/

namespace Oxidize.Layout.Delimiter

open Text

variable {d : Delimiter} {t u : Text}

/-- Parentheses. -/
def round : Delimiter := ⟨'(', ')'⟩

/-- Square brackets. -/
def square : Delimiter := ⟨'[', ']'⟩

/-- Braces. -/
def curly : Delimiter := ⟨'{', '}'⟩

/-- How often a delimiter opens more than it closes, wherever in the text. -/
def surplus (d : Delimiter) (t : Text) : Int :=
  t.count d.opening - t.count d.closing

/-- What one character adds to the surplus. -/
def weight (d : Delimiter) (c : Char) : Int :=
  (if c = d.opening then 1 else 0) - if c = d.closing then 1 else 0

@[simp] theorem surplus_nil (d : Delimiter) : d.surplus [] = 0 := rfl

@[simp] theorem surplus_cons (d : Delimiter) (c : Char) (t : Text) :
    d.surplus (c :: t) = d.weight c + d.surplus t := by
  simp only [surplus, weight, List.count_cons, beq_iff_eq]
  split <;> split <;> omega

@[simp] theorem surplus_append (d : Delimiter) (t u : Text) :
    d.surplus (t ++ u) = d.surplus t + d.surplus u := by
  simp only [surplus, List.count_append]
  omega

theorem weight_of_isSpace (hd : d ∈ brackets) {c : Char} (hc : isSpace c) : d.weight c = 0 := by
  have hopening : c ≠ d.opening := by
    rintro rfl
    revert hc
    revert d
    decide
  have hclosing : c ≠ d.closing := by
    rintro rfl
    revert hc
    revert d
    decide
  simp [weight, hopening, hclosing]

theorem surplus_of_gap (hd : d ∈ brackets) (h : Gap t) : d.surplus t = 0 := by
  induction t with
  | nil => rfl
  | cons c t ih =>
    rw [Gap, List.forall_mem_cons] at h
    rw [surplus_cons, weight_of_isSpace hd h.1, ih h.2, Int.zero_add]

end Oxidize.Layout.Delimiter
