import Oxidize.Proofs.Layout.Again

/-!
# The lines of the final text

What the final text of converted lines looks like, line by line. A line is written with the spaces
of its depth in front, a blank line is empty (`written`). Lines that are put together and cut again
come back, but for a blank one at their end (`lines_unlines_reindentLines`). In an entry point they
stand one level deeper, between the header and a closing brace (`lines_finish`). The header holds
the signature by which an entry point is recognised, so that no text is wrapped twice
(`ensureEntryPoint_ensureEntryPoint`).
-/

namespace Oxidize.Layout

open Text

variable {s : Settings} {depth width : Nat} {l : Text} {ls : List Text}

/-- The lines without a blank one at their end. -/
def dropBlankEnd (ls : List Text) : List Text :=
  if EndsInInk ls then ls else ls.dropLast

/-- A line as it is written at a depth. -/
def written (width depth : Nat) (l : Text) : Text :=
  if l.isBlank then [] else spaces (width * depth) ++ l.trim

/-! ### Lines and their depths -/

/-- What is made of placed lines is made of the lines and their depths, if it makes nothing of a
line without ink. -/
theorem map_place_eq_zipWith {f : Placed → Text} (hempty : f ⟨0, []⟩ = []) (depth : Nat)
    (ls : List Text) :
    (place depth ls).map f =
      List.zipWith (fun d l => if l.isBlank then [] else f ⟨d, l.trim⟩)
        ((place depth ls).map Placed.depth) ls := by
  induction ls generalizing depth with
  | nil => rfl
  | cons l ls ih =>
    by_cases hblank : l.isBlank
    · rw [place_cons_of_blank hblank, List.map_cons, List.map_cons, List.zipWith_cons_cons, ih,
        if_pos hblank, hempty]
    · rw [place_cons_of_ink hblank, List.map_cons, List.map_cons, List.zipWith_cons_cons, ih,
        if_neg hblank]

theorem reindentLines_eq_zipWith (width : Nat) (ls : List Text) :
    reindentLines width ls = List.zipWith (written width) (depths ls) ls := by
  have hwritten : written width =
      fun d l => if l.isBlank then [] else Placed.render width ⟨d, l.trim⟩ := by
    funext d l
    rw [written, Placed.render, Nat.mul_comm]
  rw [reindentLines, map_place_eq_zipWith (render_empty width), depths, hwritten]

/-- One level deeper, lines are written with the spaces of one level more. -/
theorem map_deepen_reindentLines (s : Settings) (ls : List Text) :
    (reindentLines s.width ls).map (deepen s) =
      List.zipWith (fun d l => written s.width (d + 1) l) (depths ls) ls := by
  have hdeeper : (reindentLines s.width ls).map (deepen s) =
      (place 0 ls).map fun p => p.deeper.render s.width := by
    rw [reindentLines, List.map_map]
    exact List.map_congr_left fun p hp => deepen_render hp
  have hplaced := map_place_eq_zipWith (f := fun p => p.deeper.render s.width)
    (render_empty s.width) 0 ls
  rw [hdeeper, hplaced, depths]
  congr 1
  funext d l
  rw [written]
  split
  · rfl
  · rename_i hblank
    rw [Placed.deeper, if_neg (mt trim_eq_nil_iff.1 hblank), Placed.render, Nat.mul_comm]

/-! ### A blank line at the end -/

theorem dropBlankEnd_concat_of_blank (hl : l.isBlank) (ls : List Text) :
    dropBlankEnd (ls ++ [l]) = ls := by
  have hlast : ¬ EndsInInk (ls ++ [l]) := by
    intro h
    exact h l List.getLast?_concat hl
  rw [dropBlankEnd, if_neg hlast, List.dropLast_concat]

/-- Indented lines come back when they are cut again, but for a blank one at their end. -/
theorem lines_unlines_reindentLines (hls : ∀ l ∈ ls, '\n' ∉ l) (width : Nat) :
    lines (unlines (reindentLines width ls)) = reindentLines width (dropBlankEnd ls) := by
  by_cases hlast : EndsInInk ls
  · rw [dropBlankEnd, if_pos hlast]
    exact lines_unlines_render hls hlast width
  · obtain ⟨ks, l, rfl, hl⟩ := eq_or_exists_of_not_endsInInk hlast
    have hks : ∀ k ∈ ks, '\n' ∉ k := fun k hk => hls k (List.mem_append_left [l] hk)
    rw [dropBlankEnd_concat_of_blank hl, lines_unlines_reindentLines_concat hks hl]

theorem dropBlankEnd_subset (ls : List Text) : dropBlankEnd ls ⊆ ls := by
  rw [dropBlankEnd]
  split
  · exact List.Subset.refl ls
  · exact List.dropLast_subset ls

/-- The depth of a blank line at the end is not asked for. -/
theorem zipWith_depths_dropBlankEnd (f : Nat → Text → Text) (ls : List Text) :
    List.zipWith f (depths (dropBlankEnd ls)) (dropBlankEnd ls) =
      List.zipWith f (depths ls) (dropBlankEnd ls) := by
  by_cases hlast : EndsInInk ls
  · rw [dropBlankEnd, if_pos hlast]
  · obtain ⟨ks, l, rfl, hl⟩ := eq_or_exists_of_not_endsInInk hlast
    have hlength : (depths ks).length = ks.length := by simp [depths]
    have hdepths : depths (ks ++ [l]) = depths ks ++ [0] := by
      rw [depths, place_append, place_cons_of_blank hl, List.map_append, depths]
      rfl
    have hcut : List.zipWith f (depths ks ++ [0]) (ks ++ []) =
        List.zipWith f (depths ks) ks ++ List.zipWith f [0] [] := List.zipWith_append hlength
    rw [dropBlankEnd_concat_of_blank hl, hdepths]
    simpa using hcut.symm

/-! ### The final text -/

theorem hasEntryPoint_iff (s : Settings) (code : Text) :
    hasEntryPoint s code ↔ s.entrySignature <:+: code := by
  rw [hasEntryPoint, includes_iff]

/-- The header shows that code is wrapped. -/
theorem hasEntryPoint_wrap (s : Settings) (code : Text) : hasEntryPoint s (wrap s code) := by
  have hheader : s.entrySignature <+: s.entryHeader := List.prefix_append _ _
  have htext : s.entryHeader <+: wrap s code := by
    rw [wrap, List.cons_append, unlines_cons (by simp)]
    exact List.prefix_append _ _
  exact (hasEntryPoint_iff s _).2 (hheader.trans htext).isInfix

theorem ensureEntryPoint_ensureEntryPoint (s : Settings) (code : Text) :
    ensureEntryPoint s (ensureEntryPoint s code) = ensureEntryPoint s code := by
  by_cases h : !s.wrap || hasEntryPoint s code
  · have hkept : ensureEntryPoint s code = code := if_pos h
    rw [hkept, hkept]
  · have hwrapped : ensureEntryPoint s code = wrap s code := if_neg h
    rw [hwrapped, ensureEntryPoint, hasEntryPoint_wrap, Bool.or_true, if_pos rfl]

/-- The lines of an entry point around indented lines. -/
def wrappedLines (s : Settings) (ls : List Text) : List Text :=
  s.entryHeader ::
    List.zipWith (fun d l => written s.width (d + 1) l) (depths ls) (dropBlankEnd ls) ++ [['\x7d']]

theorem wrappedLines_eq (s : Settings) (ls : List Text) :
    wrappedLines s ls =
      s.entryHeader :: (reindentLines s.width (dropBlankEnd ls)).map (deepen s) ++ [['\x7d']] := by
  rw [wrappedLines, map_deepen_reindentLines, zipWith_depths_dropBlankEnd]

theorem wrap_reindentLines (hls : ∀ l ∈ ls, '\n' ∉ l) :
    wrap s (unlines (reindentLines s.width ls)) = unlines (wrappedLines s ls) := by
  rw [wrap, lines_unlines_reindentLines hls, wrappedLines_eq]

theorem getLast?_deepen_ne {c : Char} (hl : l.getLast? ≠ some c) :
    (deepen s l).getLast? ≠ some c := by
  rw [deepen]
  split
  · simp
  · rename_i hblank
    have hne : l ≠ [] := by
      rintro rfl
      exact hblank rfl
    rw [List.getLast?_eq_some_getLast hne] at hl
    rwa [List.getLast?_append, List.getLast?_eq_some_getLast hne, Option.some_or]

/-- None of the lines holds a line end, and the last one is a brace. -/
theorem lines_unlines_wrappedLines (hname : '\n' ∉ s.entryPoint) (hls : ∀ l ∈ ls, '\n' ∉ l) :
    lines (unlines (wrappedLines s ls)) = wrappedLines s ls := by
  have hheader : '\n' ∉ s.entryHeader ∧ s.entryHeader.getLast? ≠ some '\r' := by
    refine ⟨?_, ?_⟩
    · simp [Settings.entryHeader, newline_not_mem_entrySignature hname]
    · simp [Settings.entryHeader]
  have hkept : ∀ l ∈ dropBlankEnd ls, '\n' ∉ l := fun l hl => hls l (dropBlankEnd_subset ls hl)
  have hlines : ∀ k ∈ (reindentLines s.width (dropBlankEnd ls)).map (deepen s),
      '\n' ∉ k ∧ k.getLast? ≠ some '\r' := by
    rw [List.forall_mem_map, reindentLines, List.forall_mem_map]
    intro p hp
    refine ⟨newline_not_mem_deepen ?_, getLast?_deepen_ne ?_⟩
    · exact newline_not_mem_render (newline_not_mem_text hkept hp) s.width
    · exact getLast?_render_ne rfl hp s.width
  rw [wrappedLines_eq]
  refine lines_unlines ?_ ?_
  · exact List.forall_mem_append.2 ⟨List.forall_mem_cons.2 ⟨hheader, hlines⟩,
      List.forall_mem_singleton.2 (by decide)⟩
  · rw [List.getLast?_concat]
    decide

/-- The final text of lines. If the settings ask for it and no line holds the signature of the entry
point, it is the header, the lines one level deeper and a closing brace; a blank line at the end is
dropped. Otherwise it is the lines at their depths. In neither case is it wrapped again. -/
theorem lines_finish (s : Settings) (hname : '\n' ∉ s.entryPoint) (hls : ∀ l ∈ ls, '\n' ∉ l) :
    let code := unlines (reindentLines s.width ls)
    (s.wrap ∧ ¬ s.entrySignature <:+: code →
      (finish s ls).lines =
          s.entryHeader ::
            List.zipWith (fun d l => written s.width (d + 1) l) (depths ls) (dropBlankEnd ls) ++
              [['\x7d']] ∧
        finish s ls = unlines (finish s ls).lines) ∧
    (¬ (s.wrap ∧ ¬ s.entrySignature <:+: code) →
      finish s ls = unlines (List.zipWith (written s.width) (depths ls) ls)) ∧
    ensureEntryPoint s (finish s ls) = finish s ls := by
  intro code
  have hasked : (s.wrap ∧ ¬ s.entrySignature <:+: code) ↔
      ¬ (!s.wrap || hasEntryPoint s code) := by
    rw [← hasEntryPoint_iff]
    simp
  rw [hasked, Decidable.not_not]
  refine ⟨fun h => ?_, fun h => ?_, ensureEntryPoint_ensureEntryPoint s code⟩
  · have hfinish : finish s ls = unlines (wrappedLines s ls) :=
      (if_neg h).trans (wrap_reindentLines hls)
    rw [hfinish, lines_unlines_wrappedLines hname hls, wrappedLines]
    exact ⟨rfl, rfl⟩
  · have hfinish : finish s ls = code := if_pos h
    rw [hfinish, ← reindentLines_eq_zipWith]

/-- A stray brace, a block that is left open and blank lines, wrapped; and the same lines behind an
entry point. -/
theorem lines_finish_open_block :
    let s : Settings := { indentWidth := 2, entryPoint := "run" }
    let ls : List Text := [" \x7d", "\t", "if a \x7b // b", "c;\t", " "]
    ('\n' ∉ s.entryPoint ∧ ∀ l ∈ ls, '\n' ∉ l) ∧
      (finish s ls).lines =
        ["fn run() \x7b", "  \x7d", "", "  if a \x7b // b", "    c;", "\x7d"].map String.toList ∧
      ensureEntryPoint s (finish s ls) = finish s ls ∧
      finish s ("fn run() \x7b".toList :: ls) =
        "fn run() \x7b\n\x7d\n\nif a \x7b // b\n  c;\n".toList := by
  intro s ls
  have hname : '\n' ∉ s.entryPoint := by decide
  have hls : ∀ l ∈ ls, '\n' ∉ l := by decide
  have hall : ∀ l ∈ "fn run() \x7b".toList :: ls, '\n' ∉ l := by decide
  obtain ⟨hwrapped, -, htwice⟩ := lines_finish s hname hls
  refine ⟨⟨hname, hls⟩, ?_, htwice, ?_⟩
  · rw [(hwrapped ?_).1]
    · decide +kernel
    · rw [← hasEntryPoint_iff]
      decide +kernel
  · rw [(lines_finish s hname hall).2.1 ?_]
    · decide +kernel
    · rw [← hasEntryPoint_iff]
      decide +kernel

end Oxidize.Layout
