import Oxidize.Layout.Depth
import Oxidize.Proofs.Text.Unlines

/-!
# The walk through the lines

`place` walks through lines and places each of them at a depth. The walk goes through a text piece
by piece (`place_append`) and sees no more of a line than what is left of it after trimming
(`walk_congr`). A placed line is empty, or it is the ink of a line (`cases_of_mem_place`), so lines
that are written out come back when they are cut again (`lines_unlines_render`).
-/

namespace Oxidize.Layout

open Text

variable {depth width : Nat} {l : Text} {ls ks : List Text} {p : Placed}

theorem place_cons_of_blank (h : l.isBlank) (depth : Nat) (ls : List Text) :
    place depth (l :: ls) = ⟨0, []⟩ :: place depth ls :=
  if_pos h

theorem place_cons_of_ink (h : ¬ l.isBlank) (depth : Nat) (ls : List Text) :
    place depth (l :: ls) =
      ⟨depthAt depth l.trim, l.trim⟩ :: place (depthAfter depth l.trim) ls :=
  if_neg h

theorem finalDepth_cons_of_blank (h : l.isBlank) (depth : Nat) (ls : List Text) :
    finalDepth depth (l :: ls) = finalDepth depth ls :=
  if_pos h

theorem finalDepth_cons_of_ink (h : ¬ l.isBlank) (depth : Nat) (ls : List Text) :
    finalDepth depth (l :: ls) = finalDepth (depthAfter depth l.trim) ls :=
  if_neg h

theorem place_append (depth : Nat) (ls ks : List Text) :
    place depth (ls ++ ks) = place depth ls ++ place (finalDepth depth ls) ks := by
  induction ls generalizing depth with
  | nil => rfl
  | cons l ls ih =>
    rw [List.cons_append]
    by_cases h : l.isBlank
    · rw [place_cons_of_blank h, place_cons_of_blank h, finalDepth_cons_of_blank h, ih,
        List.cons_append]
    · rw [place_cons_of_ink h, place_cons_of_ink h, finalDepth_cons_of_ink h, ih,
        List.cons_append]

theorem finalDepth_append (depth : Nat) (ls ks : List Text) :
    finalDepth depth (ls ++ ks) = finalDepth (finalDepth depth ls) ks := by
  induction ls generalizing depth with
  | nil => rfl
  | cons l ls ih =>
    rw [List.cons_append]
    by_cases h : l.isBlank
    · rw [finalDepth_cons_of_blank h, finalDepth_cons_of_blank h, ih]
    · rw [finalDepth_cons_of_ink h, finalDepth_cons_of_ink h, ih]

theorem isBlank_congr {k : Text} (h : l.trim = k.trim) : l.isBlank ↔ k.isBlank := by
  rw [← trim_eq_nil_iff, h, trim_eq_nil_iff]

/-- The walk sees trimmed lines only. -/
theorem walk_congr (h : ls.map trim = ks.map trim) (depth : Nat) :
    place depth ls = place depth ks ∧ finalDepth depth ls = finalDepth depth ks := by
  induction ls generalizing depth ks with
  | nil =>
    rw [List.map_nil, eq_comm, List.map_eq_nil_iff] at h
    rw [h]
    exact ⟨rfl, rfl⟩
  | cons l ls ih =>
    rw [List.map_cons, eq_comm, List.map_eq_cons_iff] at h
    obtain ⟨k, ks, rfl, hk, hks⟩ := h
    by_cases hblank : l.isBlank
    · have hblank' := (isBlank_congr hk).2 hblank
      obtain ⟨hplace, hfinal⟩ := ih hks.symm depth
      rw [place_cons_of_blank hblank, place_cons_of_blank hblank', finalDepth_cons_of_blank hblank,
        finalDepth_cons_of_blank hblank', hplace, hfinal]
      exact ⟨rfl, rfl⟩
    · have hblank' := mt (isBlank_congr hk).1 hblank
      obtain ⟨hplace, hfinal⟩ := ih hks.symm (depthAfter depth l.trim)
      rw [place_cons_of_ink hblank, place_cons_of_ink hblank', finalDepth_cons_of_ink hblank,
        finalDepth_cons_of_ink hblank', hk, hplace, hfinal]
      exact ⟨rfl, rfl⟩

theorem place_congr (h : ls.map trim = ks.map trim) (depth : Nat) :
    place depth ls = place depth ks :=
  (walk_congr h depth).1

/-- The walk trims the lines and keeps their number and order. -/
theorem map_text_place (depth : Nat) (ls : List Text) :
    (place depth ls).map Placed.text = ls.map trim := by
  induction ls generalizing depth with
  | nil => rfl
  | cons l ls ih =>
    by_cases h : l.isBlank
    · rw [place_cons_of_blank h, List.map_cons, List.map_cons, ih, trim_eq_nil_iff.2 h]
    · rw [place_cons_of_ink h, List.map_cons, List.map_cons, ih]

/-- A placed line is empty, or it is a line that is not blank. -/
theorem cases_of_mem_place (hp : p ∈ place depth ls) :
    p = ⟨0, []⟩ ∨ ∃ l ∈ ls, ¬ l.isBlank ∧ p.text = l.trim := by
  induction ls generalizing depth with
  | nil => cases hp
  | cons l ls ih =>
    have further {depth : Nat} (hp : p ∈ place depth ls) :
        p = ⟨0, []⟩ ∨ ∃ k ∈ l :: ls, ¬ k.isBlank ∧ p.text = k.trim :=
      (ih hp).imp_right fun ⟨k, hk, h⟩ => ⟨k, List.mem_cons_of_mem l hk, h⟩
    by_cases h : l.isBlank
    · rw [place_cons_of_blank h, List.mem_cons] at hp
      exact hp.elim .inl further
    · rw [place_cons_of_ink h, List.mem_cons] at hp
      rcases hp with rfl | hp
      · exact .inr ⟨l, List.mem_cons_self, h, rfl⟩
      · exact further hp

/-! ### Lines written out -/

theorem gap_spaces (n : Nat) : Gap (spaces n) := by
  intro c hc
  rw [spaces, List.mem_replicate] at hc
  rw [hc.2]
  rfl

theorem newline_not_mem_spaces (n : Nat) : '\n' ∉ spaces n := by
  simp [spaces]

theorem render_empty (width : Nat) : Placed.render width ⟨0, []⟩ = [] := by
  simp [Placed.render, spaces]

theorem ink_render (width : Nat) (p : Placed) : ink (p.render width) = ink p.text := by
  rw [Placed.render, ink_append, (gap_spaces _).ink_eq, List.nil_append]

theorem newline_not_mem_text (hls : ∀ l ∈ ls, '\n' ∉ l) (hp : p ∈ place depth ls) :
    '\n' ∉ p.text := by
  rcases cases_of_mem_place hp with rfl | ⟨l, hl, -, htext⟩
  · exact List.not_mem_nil
  · exact htext ▸ fun h => hls l hl (mem_of_mem_trim h)

theorem newline_not_mem_render (h : '\n' ∉ p.text) (width : Nat) : '\n' ∉ p.render width := by
  intro hmem
  rcases List.mem_append.1 hmem with hmem | hmem
  · exact newline_not_mem_spaces _ hmem
  · exact h hmem

/-- A line that is written out does not end in white space. -/
theorem getLast?_render_ne {c : Char} (hc : isSpace c) (hp : p ∈ place depth ls) (width : Nat) :
    (p.render width).getLast? ≠ some c := by
  rcases cases_of_mem_place hp with rfl | ⟨l, -, hblank, htext⟩
  · simp [render_empty]
  · have hink : ink l ≠ [] := mt isBlank_iff_ink.2 hblank
    intro hlast
    rw [Placed.render, htext, List.getLast?_append, getLast?_trim,
      List.getLast?_eq_some_getLast hink, Option.some_or, Option.some.injEq] at hlast
    have hmem : c ∈ ink l := hlast ▸ List.getLast_mem hink
    exact Bool.false_ne_true ((mem_ink.1 hmem).2.symm.trans hc)

/-- There are no lines, or the last one is not blank. -/
def EndsInInk (ls : List Text) : Prop :=
  ∀ l ∈ ls.getLast?, ¬ l.isBlank

instance (ls : List Text) : Decidable (EndsInInk ls) :=
  inferInstanceAs (Decidable (∀ l ∈ ls.getLast?, ¬ l.isBlank))

theorem lines_unlines_render (hls : ∀ l ∈ ls, '\n' ∉ l) (hlast : EndsInInk ls) (width : Nat) :
    lines (unlines ((place depth ls).map (Placed.render width))) =
      (place depth ls).map (Placed.render width) := by
  have hends : ∀ l ∈ (place depth ls).map (Placed.render width),
      '\n' ∉ l ∧ l.getLast? ≠ some '\r' :=
    List.forall_mem_map.2 fun p hp =>
      ⟨newline_not_mem_render (newline_not_mem_text hls hp) width, getLast?_render_ne rfl hp width⟩
  refine lines_unlines hends ?_
  rcases List.eq_nil_or_concat ls with rfl | ⟨ks, l, rfl⟩
  · simp
  · rw [List.concat_eq_append] at hlast ⊢
    have hl : ¬ l.isBlank := hlast l (by simp)
    have hne : l.trim ≠ [] := mt trim_eq_nil_iff.1 hl
    rw [place_append, place_cons_of_ink hl]
    simp [Placed.render, hne]

end Oxidize.Layout
