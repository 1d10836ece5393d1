import Oxidize.Proofs.Text.Follows
import Oxidize.Proofs.Text.Lines

/-!
# Lines put together

`unlines` puts lines together and `lines` cuts them again. Lines without line feeds come back, up to
the carriage returns at their ends (`lines_unlines_append`), which trimming removes anyway
(`trim_dropReturn`). Two lists of such lines with the same length never give the same text
(`unlines_inj`).
-/

namespace Oxidize.Text

variable {c d : Char} {g l t : Text} {ls ks : List Text}

/-! ### Trimming -/

theorem trimStart_append_of_gap (hg : Gap g) (t : Text) : trimStart (g ++ t) = trimStart t :=
  List.dropWhile_append_of_pos hg

theorem trimStart_trimStart (t : Text) : trimStart (trimStart t) = trimStart t := by
  obtain ⟨g, hg, ht⟩ := trimStart_spec t
  exact (trimStart_append_of_gap hg _).symm.trans (congrArg trimStart ht.symm)

theorem trimEnd_append_of_gap (hg : Gap g) (t : Text) : trimEnd (t ++ g) = trimEnd t := by
  induction t with
  | nil =>
    have hnone : (trimEnd g).getLast? = none := by
      rw [getLast?_trimEnd, hg.ink_eq]
      rfl
    rw [List.nil_append, List.getLast?_eq_none_iff.1 hnone, trimEnd_nil]
  | cons c t ih => rw [List.cons_append, trimEnd_cons, trimEnd_cons, ih]

theorem trimEnd_trimEnd (t : Text) : trimEnd (trimEnd t) = trimEnd t := by
  obtain ⟨g, hg, ht⟩ := trimEnd_spec t
  rw [← trimEnd_append_of_gap hg, ← ht]

theorem trim_append_of_gap (hg : Gap g) (t : Text) : trim (g ++ t) = trim t := by
  rw [trim, trimStart_append_of_gap hg, trim]

theorem trim_append_gap (hg : Gap g) (t : Text) : trim (t ++ g) = trim t := by
  simp only [trim, trimStart, List.dropWhile_append]
  split
  · rename_i hnil
    -- Without ink in front, the white space goes as well.
    have hdrop : g.dropWhile isSpace = [] := by
      simpa [trimStart] using trimStart_append_of_gap hg []
    rw [hdrop, List.isEmpty_iff.1 hnil]
  · exact trimEnd_append_of_gap hg _

theorem isBlank_iff_ink : t.isBlank ↔ ink t = [] := by
  simp [isBlank, ink]

@[simp] theorem ink_trim (t : Text) : ink (trim t) = ink t := by
  obtain ⟨g, hg, ht⟩ := trimEnd_spec (trimStart t)
  rw [← ink_trimStart t, congrArg ink ht, ink_append, hg.ink_eq, List.append_nil, trim]

theorem trim_eq_nil_iff : trim t = [] ↔ t.isBlank := by
  rw [isBlank_iff_ink, ← List.head?_eq_none_iff, head?_trim, List.head?_eq_none_iff]

/-- A trimmed text is a part of the text. -/
theorem trim_isInfix (t : Text) : trim t <:+: t := by
  obtain ⟨g, -, ht⟩ := trimStart_spec t
  obtain ⟨g', -, ht'⟩ := trimEnd_spec (trimStart t)
  exact ⟨g, g', by rw [List.append_assoc, trim, ← ht', ← ht]⟩

/-- A word that begins and ends with ink stands in the trimmed text if it stands in the text. -/
theorem infix_trim_iff {w : Text} (hc : isSpace c = false) (hd : isSpace d = false) :
    c :: w ++ [d] <:+: trim t ↔ c :: w ++ [d] <:+: t := by
  refine ⟨fun h => h.trans (trim_isInfix t), fun h => ?_⟩
  obtain ⟨g, hg, ht⟩ := trimStart_spec t
  obtain ⟨g', hg', ht'⟩ := trimEnd_spec (trimStart t)
  have hstart : c :: w ++ [d] <:+: trimStart t := by
    rw [ht] at h
    exact (infix_append_iff_of_not_mem (hg.not_mem hc)).1 h
  rw [ht'] at hstart
  exact infix_of_infix_append (hg'.not_mem hd) hstart

theorem isSpace_of_head?_trim (t : Text) : ∀ c ∈ (trim t).head?, isSpace c = false := by
  intro c hc
  rw [head?_trim] at hc
  exact (mem_ink.1 (List.mem_of_mem_head? hc)).2

theorem isSpace_of_getLast?_trim (t : Text) : ∀ c ∈ (trim t).getLast?, isSpace c = false := by
  intro c hc
  rw [getLast?_trim] at hc
  exact (mem_ink.1 (List.mem_of_getLast? hc)).2

theorem trim_dropReturn (l : Text) : trim (dropReturn l) = trim l := by
  rw [dropReturn]
  split
  · rename_i h
    obtain ⟨k, rfl⟩ := List.getLast?_eq_some_iff.1 h
    have hreturn : Gap ['\r'] := List.forall_mem_singleton.2 rfl
    rw [List.dropLast_concat, trim_append_gap hreturn]
  · rfl

/-- A text that begins and ends with ink is trimmed. -/
theorem trim_eq_self (hc : isSpace c = false) (hd : isSpace d = false) (t : Text) :
    trim (c :: (t ++ [d])) = c :: (t ++ [d]) := by
  have hstart : trimStart (c :: (t ++ [d])) = c :: t ++ [d] := by simp [trimStart, hc]
  rw [trim, hstart, trimEnd_append_cons hd, trimEnd_nil]
  rfl

/-! ### Putting lines together -/

theorem unlines_cons (hne : ls ≠ []) (l : Text) : unlines (l :: ls) = l ++ '\n' :: unlines ls := by
  obtain ⟨k, ks, rfl⟩ := List.exists_cons_of_ne_nil hne
  rfl

/-- Lines come back, up to the carriage returns at their ends, with the lines of what stands last. -/
theorem lines_unlines_concat (hls : ∀ k ∈ ls, '\n' ∉ k) (t : Text) :
    lines (unlines (ls ++ [t])) = ls.map dropReturn ++ lines t := by
  induction ls with
  | nil => rfl
  | cons k ls ih =>
    rw [List.forall_mem_cons] at hls
    rw [List.cons_append, unlines_cons (by simp), lines_append_newline hls.1, ih hls.2]
    rfl

/-- The last line, which is not empty, comes back as it is. -/
theorem lines_unlines_append (hls : ∀ k ∈ ls, '\n' ∉ k) (hl : '\n' ∉ l) (hne : l ≠ []) :
    lines (unlines (ls ++ [l])) = ls.map dropReturn ++ [l] := by
  rw [lines_unlines_concat hls, lines_of_not_mem hl hne]

/-- Lines without line ends come back if the last one is not empty. -/
theorem lines_unlines (hls : ∀ l ∈ ls, '\n' ∉ l ∧ l.getLast? ≠ some '\r')
    (hlast : ls.getLast? ≠ some []) : lines (unlines ls) = ls := by
  rcases List.eq_nil_or_concat ls with rfl | ⟨ks, l, rfl⟩
  · rfl
  · rw [List.concat_eq_append] at hls hlast ⊢
    have hks : ∀ k ∈ ks, '\n' ∉ k ∧ k.getLast? ≠ some '\r' :=
      fun k hk => hls k (List.mem_append_left [l] hk)
    have hdrop : ks.map dropReturn = ks :=
      (List.map_congr_left fun k hk => dropReturn_of_ne (hks k hk).2).trans (List.map_id ks)
    rw [lines_unlines_append (fun k hk => (hks k hk).1) (hls l (by simp)).1 (by simpa using hlast),
      hdrop]

/-- Lines are put together in one way only. -/
theorem unlines_inj (hls : ∀ l ∈ ls, '\n' ∉ l) (hks : ∀ k ∈ ks, '\n' ∉ k)
    (hlength : ls.length = ks.length) : unlines ls = unlines ks ↔ ls = ks := by
  refine ⟨fun h => ?_, fun h => h ▸ rfl⟩
  induction ls generalizing ks with
  | nil => rw [List.length_nil, eq_comm, List.length_eq_zero_iff] at hlength; rw [hlength]
  | cons l ls ih =>
    obtain ⟨k, ks, rfl⟩ := List.exists_cons_of_length_eq_add_one hlength.symm
    rw [List.forall_mem_cons] at hls hks
    simp only [List.length_cons, Nat.add_right_cancel_iff] at hlength
    by_cases hnil : ls = []
    · obtain rfl := hnil
      obtain rfl := List.length_eq_zero_iff.1 hlength.symm
      simpa using h
    · have hnil' : ks ≠ [] := by
        rintro rfl
        exact hnil (List.length_eq_zero_iff.1 hlength)
      rw [unlines_cons hnil, unlines_cons hnil'] at h
      obtain ⟨hl, htail⟩ := append_cons_inj hls.1 hks.1 h
      rw [hl, ih hls.2 hks.2 hlength htail]

/-- A word that holds no line feed stands in one of the lines. -/
theorem infix_unlines {w : Text} (hw : w ≠ []) (hline : '\n' ∉ w) :
    w <:+: unlines ls ↔ ∃ l ∈ ls, w <:+: l := by
  induction ls with
  | nil => simp [hw]
  | cons l ls ih =>
    by_cases hnil : ls = []
    · simp [hnil]
    · rw [unlines_cons hnil, infix_append_cons hw hline, ih]
      simp

/-- A word that holds no line feed begins the text if it begins the first line. -/
theorem prefix_unlines {w : Text} (hw : w ≠ []) (hline : '\n' ∉ w) :
    w <+: unlines ls ↔ ∃ l ∈ ls.head?, w <+: l := by
  cases ls with
  | nil => simp [hw]
  | cons l ls =>
    by_cases hnil : ls = []
    · simp [hnil]
    · rw [unlines_cons hnil, ← List.isPrefixOf_iff_prefix, isPrefixOf_append_cons hline,
        List.isPrefixOf_iff_prefix]
      simp

end Oxidize.Text
