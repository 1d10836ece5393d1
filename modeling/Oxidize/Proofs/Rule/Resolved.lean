import Oxidize.Proofs.Rule.CommentMarks

/-!
# Patterns that are gone behind the rules

A rule takes its pattern out of a text if what it writes does not overlap with the pattern
(`Text.Apart`). The pattern then stays away if every later rule that could complete it takes one
along (`Text.Sealed`). `RuleTable.spent` collects the patterns of which both can be seen from the
table alone, and behind the table no text holds one of them (`RuleTable.free_spent_apply`).

Of the nineteen standard patterns fourteen are gone for every text (`RuleTable.resolved`). Thirteen
of them are spent. A negated identity test can come back under its own rule, but it holds a
negation, and negations are spent. The other five patterns can stay
(`RuleTable.exists_infix_apply_standard`).
-/

namespace Oxidize.RuleTable

open Text

variable {r : Rule} {rules : RuleTable}

/-- The rule leaves nothing of its pattern, and the rules behind it bring nothing back. -/
def Spends (r : Rule) (rules : RuleTable) : Prop :=
  (r.pattern ≠ [] ∧ Apart r.pattern r.replacement) ∧
    ∀ s ∈ rules, Sealed [r.pattern] s.pattern s.replacement

instance (r : Rule) (rules : RuleTable) : Decidable (Spends r rules) :=
  inferInstanceAs (Decidable (_ ∧ _))

theorem Spends.gone (h : Spends r rules) (t : Text) :
    ¬ r.pattern <:+: apply rules (r.apply t) := by
  obtain ⟨⟨hne, hapart⟩, hsealed⟩ := h
  have hfree : Free [r.pattern] (r.apply t) := free_singleton.2 (not_infix_replaceAll hne hapart t)
  exact free_singleton.1 (free_apply hsealed hfree)

/-- The patterns of a table that its rules spend. -/
def spent : RuleTable → List Text
  | [] => []
  | r :: rules => if Spends r rules then r.pattern :: spent rules else spent rules

/-- No text holds a spent pattern behind the rules. -/
theorem free_spent_apply (rules : RuleTable) (t : Text) : Free (spent rules) (apply rules t) := by
  induction rules generalizing t with
  | nil => exact fun f hf => absurd hf List.not_mem_nil
  | cons r rules ih =>
    rw [spent, apply_cons]
    split
    · rename_i hspends
      exact List.forall_mem_cons.2 ⟨hspends.gone t, ih (r.apply t)⟩
    · exact ih (r.apply t)

/-! ### The standard rules -/

/-- The standard patterns that no text holds behind the standard rules. -/
def resolved : List Text :=
  ["print(", "def ", "elif ", "True", "False", "import ", "from ", "class ", "__init__", "raise",
    "lambda ", " is not ", "not ", "# "]

theorem exists_spent_of_mem_resolved : ∀ w ∈ resolved, ∃ f ∈ spent standard, f <:+: w := by
  decide +kernel

/-- No later rule restores a pattern that an earlier one has replaced. -/
theorem free_resolved_apply_standard (t : Text) : Free resolved (apply standard t) :=
  (free_spent_apply standard t).of_shorter exists_spent_of_mem_resolved

/-- Every other standard pattern can stay: `except` is written again by its own rule, and the others
overlap with what is written for them. -/
theorem exists_infix_apply_standard :
    ∀ r ∈ standard, r.pattern ∉ resolved → ∃ t, r.pattern <:+: apply standard t := by
  have hleft : ∀ r ∈ standard, r.pattern ∉ resolved →
      r.pattern <:+: apply standard "try:ry: except is is and and or or " := by
    decide +kernel
  exact fun r hr hmem => ⟨_, hleft r hr hmem⟩

end Oxidize.RuleTable
