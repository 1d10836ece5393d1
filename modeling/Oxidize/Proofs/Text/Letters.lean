import Oxidize.Text.Basic

/-!
# Letters and white space

A letter of ASCII is a character of words and no white space. No white space belongs to a word.
-/

namespace Oxidize.Text

variable {c : Char} {n : Nat} {ranges : List (Nat × Nat)}

theorem toNat_of_isAlpha (hc : c.isAlpha) :
    (65 ≤ c.toNat ∧ c.toNat ≤ 90) ∨ (97 ≤ c.toNat ∧ c.toNat ≤ 122) := by
  have hval : (decide (65 ≤ c.val ∧ c.val ≤ 90) || (decide (97 ≤ c.val) && decide (c.val ≤ 122))) =
      true := hc
  simpa [UInt32.le_iff_toNat_le] using hval

theorem isSpace_of_isAlpha (hc : c.isAlpha) : isSpace c = false := by
  have hbounds := toNat_of_isAlpha hc
  simp only [isSpace, spaceRanges, inRanges_cons, inRanges_nil]
  grind

theorem isWord_of_isAlpha (hc : c.isAlpha) : isWord c := by
  have letters : ∀ n < 123, (65 ≤ n ∧ n ≤ 90) ∨ (97 ≤ n ∧ n ≤ 122) →
      inRanges n wordRanges := by
    decide +kernel
  have hbounds := toNat_of_isAlpha hc
  exact letters c.toNat (by omega) hbounds

theorem exists_of_inRanges (h : inRanges n ranges) : ∃ r ∈ ranges, r.1 ≤ n ∧ n ≤ r.2 := by
  induction ranges with
  | nil => cases h
  | cons r ranges ih =>
    rw [inRanges_cons] at h
    split at h
    · cases h
    · rename_i hlo
      rw [Bool.or_eq_true, decide_eq_true_eq] at h
      rcases h with hhi | h
      · exact ⟨r, List.mem_cons_self, Nat.not_lt.1 hlo, hhi⟩
      · obtain ⟨r', hr', hn⟩ := ih h
        exact ⟨r', List.mem_cons_of_mem r hr', hn⟩

theorem isWord_of_isSpace (hc : isSpace c) : isWord c = false := by
  have spaces : ∀ r ∈ spaceRanges, ∀ n ∈ List.range' r.1 (r.2 + 1 - r.1),
      inRanges n wordRanges = false := by
    decide +kernel
  obtain ⟨r, hr, hlo, hhi⟩ := exists_of_inRanges hc
  exact spaces r hr c.toNat (List.mem_range'_1.2 ⟨hlo, by omega⟩)

end Oxidize.Text
