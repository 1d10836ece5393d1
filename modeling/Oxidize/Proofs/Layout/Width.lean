import Oxidize.Proofs.Layout.WrapOrder

/-!
# The width of a level

The width of a level of indentation shows in the spaces in front of lines and nowhere else. Whether
code has an entry point does not depend on it, because the signature of an entry point does not
begin with a space and holds no line feed (`hasEntryPoint_render`). So with two widths the final
texts have the same lines up to these spaces, and both or neither are wrapped
(`finish_indentWidth`).
-/

namespace Oxidize.Layout

open Text

variable {s : Settings} {depth width : Nat} {ls : List Text}

/-! ### Indented lines -/

theorem trim_render (width : Nat) (p : Placed) : trim (p.render width) = trim p.text :=
  trim_append_of_gap (gap_spaces _) p.text

theorem map_trim_lines_of_not_mem {l : Text} (hl : '\n' ∉ l) :
    (lines l).map trim = if l = [] then [] else [trim l] := by
  split
  · rename_i hnil
    rw [hnil]
    rfl
  · rename_i hne
    rw [lines_of_not_mem hl hne]
    rfl

theorem render_eq_nil_iff {p : Placed} (hp : p ∈ place depth ls) (width : Nat) :
    p.render width = [] ↔ p.text = [] := by
  rcases cases_of_mem_place hp with rfl | ⟨l, -, hblank, htext⟩
  · simp [render_empty]
  · have hne : p.text ≠ [] := htext ▸ mt trim_eq_nil_iff.1 hblank
    simp [Placed.render, hne]

/-- Up to white space at their ends, indented code has the lines of the code itself. -/
theorem map_trim_lines_render (hls : ∀ l ∈ ls, '\n' ∉ l) (width : Nat) :
    (lines (unlines ((place depth ls).map (Placed.render width)))).map trim =
      (lines (unlines ((place depth ls).map Placed.text))).map trim := by
  have htexts : ∀ p ∈ place depth ls, '\n' ∉ p.text := fun p hp => newline_not_mem_text hls hp
  have hempty : ∀ p ∈ place depth ls, p.render width = [] ↔ p.text = [] :=
    fun p hp => render_eq_nil_iff hp width
  -- The last line is apart: if it is empty, it is no line of the text.
  rcases List.eq_nil_or_concat (place depth ls) with hnil | ⟨ps, p, hps⟩
  · rw [hnil]
    rfl
  · rw [hps, List.concat_eq_append] at htexts hempty ⊢
    obtain ⟨hinit, hlast⟩ := List.forall_mem_append.1 htexts
    have hp := List.forall_mem_singleton.1 hlast
    have hrendered : ∀ l ∈ ps.map (Placed.render width), '\n' ∉ l :=
      List.forall_mem_map.2 fun q hq => newline_not_mem_render (hinit q hq) width
    rw [List.map_append, List.map_append, List.map_singleton, List.map_singleton,
      lines_unlines_concat hrendered, lines_unlines_concat (List.forall_mem_map.2 hinit)]
    simp only [List.map_append, List.map_map, Function.comp_def, trim_dropReturn, trim_render,
      map_trim_lines_of_not_mem hp, map_trim_lines_of_not_mem (newline_not_mem_render hp width),
      hempty p (by simp)]

/-! ### Entry points -/

section OneLine

variable (hname : '\n' ∉ s.entryPoint)

include hname

theorem newline_not_mem_entrySignature : '\n' ∉ s.entrySignature := by
  simp [Settings.entrySignature, hname]

/-- Whether indented code has the entry point does not depend on the indentation. -/
theorem hasEntryPoint_render (ps : List Placed) (width : Nat) :
    hasEntryPoint s (unlines (ps.map (Placed.render width))) =
      hasEntryPoint s (unlines (ps.map Placed.text)) := by
  have hsignature : s.entrySignature = 'f' :: ("n ".toList ++ s.entryPoint ++ "()".toList) := rfl
  have hline := newline_not_mem_entrySignature hname
  have hplaced (p : Placed) :
      s.entrySignature <:+: p.render width ↔ s.entrySignature <:+: p.text := by
    rw [hsignature]
    exact infix_append_iff_of_not_mem (by simp [spaces])
  have hne : s.entrySignature ≠ [] := hsignature ▸ List.cons_ne_nil _ _
  rw [Bool.eq_iff_iff, hasEntryPoint, hasEntryPoint, includes_iff, includes_iff,
    infix_unlines hne hline, infix_unlines hne hline]
  constructor
  · rintro ⟨_, hl, hl'⟩
    obtain ⟨p, hp, rfl⟩ := List.mem_map.1 hl
    exact ⟨p.text, List.mem_map_of_mem hp, (hplaced p).1 hl'⟩
  · rintro ⟨_, hl, hl'⟩
    obtain ⟨p, hp, rfl⟩ := List.mem_map.1 hl
    exact ⟨p.render width, List.mem_map_of_mem hp, (hplaced p).2 hl'⟩

theorem map_trim_lines_wrap (code : Text) :
    (lines (wrap s code)).map trim =
      s.entryHeader.trim :: code.lines.map trim ++ [['\x7d']] := by
  have hlines : ∀ l ∈ s.entryHeader :: code.lines.map (deepen s), '\n' ∉ l := by
    refine List.forall_mem_cons.2 ⟨?_, List.forall_mem_map.2 fun l hl => ?_⟩
    · simp [Settings.entryHeader, newline_not_mem_entrySignature hname]
    · exact newline_not_mem_deepen (newline_not_mem_of_mem_lines hl)
  have hbrace : (lines ['\x7d']).map trim = [['\x7d']] := rfl
  rw [wrap, lines_unlines_concat hlines, List.map_append, hbrace]
  simp [trim_dropReturn, trim_deepen, Function.comp_def]

/-- With two widths, both texts are wrapped or neither is. -/
theorem finish_cases (n : Nat) (ls : List Text) :
    let r : Settings := { s with indentWidth := n }
    let code := unlines (reindentLines s.width ls)
    let code' := unlines (reindentLines r.width ls)
    finish s ls = wrap s code ∧ finish r ls = wrap r code' ∨
      finish s ls = code ∧ finish r ls = code' := by
  intro r code code'
  have hentry : hasEntryPoint r code' = hasEntryPoint s code :=
    (hasEntryPoint_render hname (place 0 ls) r.width).trans
      (hasEntryPoint_render hname (place 0 ls) s.width).symm
  have hs : finish s ls = if !s.wrap || hasEntryPoint s code then code else wrap s code := rfl
  have hr : finish r ls = if !s.wrap || hasEntryPoint s code then code' else wrap r code' := by
    rw [← hentry]
    rfl
  rw [hs, hr]
  split
  · exact .inr ⟨rfl, rfl⟩
  · exact .inl ⟨rfl, rfl⟩

end OneLine

/-- The setting for the width is read up to the maximum. -/
theorem finish_of_width_eq {n : Nat} (h : min s.indentWidth 16 = min n 16) (ls : List Text) :
    finish s ls = finish { s with indentWidth := n } ls := by
  have hwidth : Settings.width { s with indentWidth := n } = s.width := h.symm
  have hdeepen : deepen { s with indentWidth := n } = deepen s := by
    funext l
    rw [deepen, deepen, Settings.indent, Settings.indent, hwidth]
  rw [finish, finish, ensureEntryPoint, ensureEntryPoint, hwidth, wrap, wrap, hdeepen]
  rfl

/-- The width of a level changes neither the number of lines of the final text nor what the lines
are up to white space at their ends, and not whether the text is wrapped in an entry point. Widths
that are equal up to the maximum give the same text. -/
theorem finish_indentWidth (s : Settings) (hname : '\n' ∉ s.entryPoint) (n : Nat)
    (hls : ∀ l ∈ ls, '\n' ∉ l) :
    let r : Settings := { s with indentWidth := n }
    let code := unlines (reindentLines s.width ls)
    let code' := unlines (reindentLines r.width ls)
    ((finish s ls).lines.length = (finish r ls).lines.length ∧
      (finish s ls).lines.map trim = (finish r ls).lines.map trim) ∧
    (finish s ls = wrap s code ∧ finish r ls = wrap r code' ∨
      finish s ls = code ∧ finish r ls = code') ∧
    (min s.indentWidth 16 = min n 16 → finish s ls = finish r ls) := by
  intro r code code'
  have hcode : code.lines.map trim = code'.lines.map trim :=
    (map_trim_lines_render hls s.width).trans (map_trim_lines_render hls r.width).symm
  have hboth := finish_cases hname n ls
  have htrim : (finish s ls).lines.map trim = (finish r ls).lines.map trim := by
    rcases hboth with ⟨hs, hr⟩ | ⟨hs, hr⟩
    · rw [hs, hr, map_trim_lines_wrap hname, map_trim_lines_wrap (s := r) hname, hcode]
      rfl
    · rw [hs, hr, hcode]
  have hlength : (finish s ls).lines.length = (finish r ls).lines.length := by
    simpa using congrArg List.length htrim
  exact ⟨⟨hlength, htrim⟩, hboth, fun hmin => finish_of_width_eq hmin ls⟩

/-- A block with three widths, of which two are cut down to the maximum. -/
theorem finish_indentWidth_block :
    let s : Settings := { indentWidth := 16 }
    let ls : List Text := ["if a \x7b", "b;", "\x7d", ""]
    ('\n' ∉ s.entryPoint ∧ ∀ l ∈ ls, '\n' ∉ l) ∧
      finish { s with indentWidth := 1 } ls =
        "fn main() \x7b\n if a \x7b\n  b;\n \x7d\n\x7d".toList ∧
      (finish s ls).lines.map trim =
        (finish { s with indentWidth := 1 } ls).lines.map trim ∧
      finish s ls = finish { s with indentWidth := UInt64.size - 1 } ls := by
  intro s ls
  have hname : '\n' ∉ s.entryPoint := by decide
  have hls : ∀ l ∈ ls, '\n' ∉ l := by decide
  refine ⟨⟨hname, hls⟩, by decide +kernel, ?_, ?_⟩
  · exact (finish_indentWidth s hname 1 hls).1.2
  · exact (finish_indentWidth s hname (UInt64.size - 1) hls).2.2 (by decide)

end Oxidize.Layout
