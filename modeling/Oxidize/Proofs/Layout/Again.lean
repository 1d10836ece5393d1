import Oxidize.Proofs.Layout.Width

/-!
# Indenting again

Lines that are indented already are placed as they were before, with any width, because the walk
sees trimmed lines only (`reindentLines_reindentLines`). A text differs from its lines at its end: a
last line that is blank is written as an empty one, and an empty last line is none when the text is
cut into lines again. So indenting a text twice drops one blank line at its end and changes nothing
else (`reindent_reindent_iff`).
-/

namespace Oxidize.Layout

open Text

variable {l : Text} {ls : List Text}

/-! ### Lines -/

theorem trim_trim (t : Text) : trim (trim t) = trim t := by
  obtain ⟨g, hg, ht⟩ := trimStart_spec t
  obtain ⟨g', hg', hstart⟩ := trimEnd_spec (trimStart t)
  have hwhole : t = g ++ (trim t ++ g') := ht.trans (congrArg (g ++ ·) hstart)
  calc trim (trim t) = trim (trim t ++ g') := (trim_append_gap hg' _).symm
    _ = trim (g ++ (trim t ++ g')) := (trim_append_of_gap hg _).symm
    _ = trim t := by rw [← hwhole]

theorem map_trim_reindentLines (width : Nat) (ls : List Text) :
    (reindentLines width ls).map trim = ls.map trim := by
  have hwritten : (reindentLines width ls).map trim = ((place 0 ls).map Placed.text).map trim := by
    rw [reindentLines, List.map_map, List.map_map]
    exact List.map_congr_left fun p _ => trim_render width p
  rw [hwritten, map_text_place, List.map_map]
  exact List.map_congr_left fun l _ => trim_trim l

/-- Lines that are indented already have the layout that they had before. -/
theorem reindentLines_reindentLines (width again : Nat) (ls : List Text) :
    reindentLines again (reindentLines width ls) = reindentLines again ls ∧
      depths (reindentLines width ls) = depths ls ∧
      finalDepth 0 (reindentLines width ls) = finalDepth 0 ls := by
  obtain ⟨hplace, hfinal⟩ := walk_congr (map_trim_reindentLines width ls) 0
  refine ⟨?_, ?_, hfinal⟩
  · rw [reindentLines, hplace, reindentLines]
  · rw [depths, hplace, depths]

/-! ### Texts -/

/-- An empty last line is a line feed at the end of the text. -/
theorem unlines_concat_nil (hne : ls ≠ []) : unlines (ls ++ [[]]) = unlines ls ++ ['\n'] := by
  induction ls with
  | nil => exact absurd rfl hne
  | cons l ls ih =>
    by_cases hnil : ls = []
    · rw [hnil]
      rfl
    · rw [List.cons_append, unlines_cons (by simp), unlines_cons hnil, ih hnil, List.append_assoc,
        List.cons_append]

theorem reindentLines_concat_of_blank (hl : l.isBlank) (width : Nat) (ls : List Text) :
    reindentLines width (ls ++ [l]) = reindentLines width ls ++ [[]] := by
  rw [reindentLines, place_append, place_cons_of_blank hl, List.map_append, reindentLines]
  simp [render_empty]

/-- A blank last line is not there any more when the indented text is cut into lines again. -/
theorem lines_unlines_reindentLines_concat (hls : ∀ k ∈ ls, '\n' ∉ k) (hl : l.isBlank)
    (width : Nat) :
    lines (unlines (reindentLines width (ls ++ [l]))) = reindentLines width ls := by
  have hline : ∀ k ∈ reindentLines width ls, '\n' ∉ k :=
    List.forall_mem_map.2 fun p hp => newline_not_mem_render (newline_not_mem_text hls hp) width
  have hreturn : ∀ k ∈ reindentLines width ls, dropReturn k = k :=
    List.forall_mem_map.2 fun p hp => dropReturn_of_ne (getLast?_render_ne rfl hp width)
  rw [reindentLines_concat_of_blank hl, lines_unlines_concat hline, List.map_congr_left hreturn,
    List.map_id', lines_nil, List.append_nil]

section Twice

variable {t : Text} (width again : Nat)

theorem reindent_reindent_of_ink (hlast : EndsInInk t.lines) :
    reindent again (reindent width t) = reindent again t := by
  have hlines : lines (unlines (reindentLines width t.lines)) = reindentLines width t.lines :=
    lines_unlines_render (fun l hl => newline_not_mem_of_mem_lines hl) hlast width
  rw [reindent, reindent, hlines, (reindentLines_reindentLines width again t.lines).1, reindent]

/-- Behind further lines a blank last line is dropped. -/
theorem reindent_eq_of_blank (hls : t.lines = ls ++ [l]) (hl : l.isBlank) (hne : ls ≠ []) :
    reindent again t = reindent again (reindent width t) ++ ['\n'] := by
  have hmem : ∀ k ∈ ls, '\n' ∉ k := fun k hk =>
    newline_not_mem_of_mem_lines (hls ▸ List.mem_append_left [l] hk)
  have hne' : reindentLines again ls ≠ [] := by
    rwa [Ne, ← List.length_eq_zero_iff, reindentLines, List.length_map, length_place,
      List.length_eq_zero_iff]
  have htwice : reindent again (reindent width t) = unlines (reindentLines again ls) := by
    rw [reindent, reindent, hls, lines_unlines_reindentLines_concat hmem hl,
      (reindentLines_reindentLines width again ls).1]
  rw [htwice, reindent, hls, reindentLines_concat_of_blank hl, unlines_concat_nil hne']

end Twice

theorem eq_or_exists_of_not_endsInInk (h : ¬ EndsInInk ls) :
    ∃ ks l, ls = ks ++ [l] ∧ l.isBlank := by
  rcases List.eq_nil_or_concat ls with rfl | ⟨ks, l, rfl⟩
  · exact absurd (by simp [EndsInInk]) h
  · rw [List.concat_eq_append] at h ⊢
    exact ⟨ks, l, rfl, by simpa [EndsInInk] using h⟩

/-- Indenting again changes nothing in lines. In a text it changes nothing exactly if there are
fewer than two lines or the last one is not blank; otherwise it drops the last line. -/
theorem reindent_reindent_iff :
    (∀ (ls : List Text) (width again : Nat),
      reindentLines again (reindentLines width ls) = reindentLines again ls ∧
        depths (reindentLines width ls) = depths ls ∧
        finalDepth 0 (reindentLines width ls) = finalDepth 0 ls) ∧
    ∀ (t : Text) (width again : Nat),
      (reindent again (reindent width t) = reindent again t ↔
        t.lines.length < 2 ∨ EndsInInk t.lines) ∧
      (¬ (t.lines.length < 2 ∨ EndsInInk t.lines) →
        reindent again t = reindent again (reindent width t) ++ ['\n']) := by
  refine ⟨fun ls width again => reindentLines_reindentLines width again ls,
    fun t width again => ?_⟩
  have hdrop (h : ¬ (t.lines.length < 2 ∨ EndsInInk t.lines)) :
      reindent again t = reindent again (reindent width t) ++ ['\n'] := by
    rw [not_or] at h
    obtain ⟨ls, l, hls, hl⟩ := eq_or_exists_of_not_endsInInk h.2
    refine reindent_eq_of_blank width again hls hl ?_
    rintro rfl
    exact h.1 (by simp [hls])
  refine ⟨⟨fun heq => ?_, ?_⟩, hdrop⟩
  · refine Decidable.byContradiction fun h => ?_
    have hlength := congrArg List.length (hdrop h)
    rw [heq, List.length_append, List.length_singleton] at hlength
    omega
  · rintro (hlength | hlast)
    · by_cases hlast : EndsInInk t.lines
      · exact reindent_reindent_of_ink width again hlast
      · -- A single blank line and no line at all are both written as the empty text.
        obtain ⟨ls, l, hls, hl⟩ := eq_or_exists_of_not_endsInInk hlast
        have hnil : ls = [] := by
          rw [hls, List.length_append, List.length_singleton] at hlength
          exact List.length_eq_zero_iff.1 (by omega)
        have hempty (width : Nat) : reindent width t = [] := by
          rw [reindent, hls, hnil, reindentLines_concat_of_blank hl]
          rfl
        rw [hempty width, hempty again]
        rfl
    · exact reindent_reindent_of_ink width again hlast

/-- A blank line at the end of a block, which the second pass drops. -/
theorem reindent_reindent_iff_blank_end :
    (¬ ((lines "if a \x7b\n\t\n \r\n").length < 2 ∨ EndsInInk (lines "if a \x7b\n\t\n \r\n")) ∧
      reindent 4 (reindent 2 "if a \x7b\n\t\n \r\n") ≠ reindent 4 "if a \x7b\n\t\n \r\n") ∧
    (EndsInInk (lines " if a \x7b // b \r\n\x0c c;\r") ∧
      reindent 3 (reindent 3 " if a \x7b // b \r\n\x0c c;\r") =
        reindent 3 " if a \x7b // b \r\n\x0c c;\r") := by
  have hblank : ¬ ((lines "if a \x7b\n\t\n \r\n").length < 2 ∨
      EndsInInk (lines "if a \x7b\n\t\n \r\n")) := by decide
  have hink : EndsInInk (lines " if a \x7b // b \r\n\x0c c;\r") := by decide
  refine ⟨⟨hblank, mt (reindent_reindent_iff.2 _ 2 4).1.1 hblank⟩, hink, ?_⟩
  exact (reindent_reindent_iff.2 _ 3 3).1.2 (.inr hink)

end Oxidize.Layout
