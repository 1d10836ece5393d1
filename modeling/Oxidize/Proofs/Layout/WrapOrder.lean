import Oxidize.Layout.EntryPoint
import Oxidize.Proofs.Comment.Split
import Oxidize.Proofs.Layout.Walk

/-!
# Wrapping before and after indenting

Converted lines are indented and then wrapped in an entry point, generated code is wrapped and then
indented. Wrapped code is walked through one level deeper. As long as no line closes a block where
none is open (`ClosesInside`), a walk from one level deeper places every line one level deeper
(`render_place_succ_iff`) and ends one level deeper (`finalDepth_succ`). A line that closes a block
at depth zero stays at depth zero in both walks, and a block that is left open moves the brace at
the end. So the two orders agree exactly on code without either, or if a level has no width
(`reindent_wrap_eq_iff`).
-/

namespace Oxidize.Layout

open Text

variable {s : Settings} {depth width : Nat} {l t : Text} {ls : List Text}

/-! ### One level deeper -/

/-- No line closes a block where none is open. -/
def ClosesInside (depth : Nat) (ls : List Text) : Prop :=
  ∀ a l b, ls = a ++ l :: b → closes l.trim → finalDepth depth a ≠ 0

theorem closesInside_nil (depth : Nat) : ClosesInside depth [] := by
  intro a l b h
  cases a <;> cases h

theorem closesInside_cons :
    ClosesInside depth (l :: ls) ↔
      (closes l.trim → depth ≠ 0) ∧ ClosesInside (finalDepth depth [l]) ls := by
  have hfinal (a : List Text) : finalDepth depth (l :: a) = finalDepth (finalDepth depth [l]) a :=
    finalDepth_append depth [l] a
  constructor
  · intro h
    refine ⟨h [] l ls rfl, fun a k b hls hk => ?_⟩
    rw [← hfinal]
    exact h (l :: a) k b (congrArg (l :: ·) hls) hk
  · rintro ⟨hl, h⟩ a k b hls hk
    cases a with
    | nil =>
      obtain rfl := (List.cons.inj hls).1
      exact hl hk
    | cons m a =>
      obtain ⟨rfl, htail⟩ := List.cons.inj hls
      rw [hfinal]
      exact h a k b htail hk

/-- A placed line one level deeper. An empty line stays where it is. -/
def Placed.deeper (p : Placed) : Placed :=
  if p.text = [] then p else ⟨p.depth + 1, p.text⟩

@[simp] theorem text_deeper (p : Placed) : p.deeper.text = p.text := by
  rw [Placed.deeper]
  split <;> rfl

theorem depthAt_succ_eq_iff :
    depthAt (depth + 1) t = depthAt depth t + 1 ↔ (closes t → depth ≠ 0) := by
  rw [depthAt, depthAt, closeBlock, closeBlock]
  split
  · rename_i h
    simp only [h, forall_const]
    omega
  · rename_i h
    simp [h]

theorem depthAfter_succ (h : closes t → depth ≠ 0) :
    depthAfter (depth + 1) t = depthAfter depth t + 1 := by
  rw [depthAfter, depthAfter, depthAt_succ_eq_iff.2 h]
  split <;> rfl

theorem finalDepth_succ (h : ClosesInside depth ls) :
    finalDepth (depth + 1) ls = finalDepth depth ls + 1 := by
  induction ls generalizing depth with
  | nil => rfl
  | cons l ls ih =>
    rw [closesInside_cons] at h
    by_cases hblank : l.isBlank
    · rw [finalDepth_cons_of_blank hblank, finalDepth_nil] at h
      rw [finalDepth_cons_of_blank hblank, finalDepth_cons_of_blank hblank, ih h.2]
    · rw [finalDepth_cons_of_ink hblank, finalDepth_nil] at h
      rw [finalDepth_cons_of_ink hblank, finalDepth_cons_of_ink hblank, depthAfter_succ h.1, ih h.2]

theorem render_inj (hwidth : 0 < width) {d e : Nat} :
    Placed.render width ⟨d, t⟩ = Placed.render width ⟨e, t⟩ ↔ d = e := by
  constructor
  · intro h
    have hlength := congrArg List.length h
    simp only [Placed.render, spaces, List.length_append, List.length_replicate,
      Nat.add_right_cancel_iff] at hlength
    exact Nat.eq_of_mul_eq_mul_right hwidth hlength
  · rintro rfl
    rfl

/-- From one level deeper, the walk places every line one level deeper exactly as long as no line
closes a block where none is open. -/
theorem render_place_succ_iff (hwidth : 0 < width) :
    (place (depth + 1) ls).map (Placed.render width) =
        ((place depth ls).map Placed.deeper).map (Placed.render width) ↔
      ClosesInside depth ls := by
  induction ls generalizing depth with
  | nil => simp [closesInside_nil]
  | cons l ls ih =>
    rw [closesInside_cons]
    by_cases h : l.isBlank
    · have hcloses : closes l.trim = false := by
        rw [trim_eq_nil_iff.2 h]
        rfl
      rw [place_cons_of_blank h, place_cons_of_blank h, finalDepth_cons_of_blank h, finalDepth_nil,
        ← ih]
      simp [Placed.deeper, hcloses]
    · have htext : l.trim ≠ [] := mt trim_eq_nil_iff.1 h
      rw [place_cons_of_ink h, place_cons_of_ink h, finalDepth_cons_of_ink h, finalDepth_nil]
      simp only [List.map_cons, List.cons.injEq, Placed.deeper, htext, if_false, render_inj hwidth,
        depthAt_succ_eq_iff]
      refine and_congr_right fun hl => ?_
      rw [depthAfter_succ hl, ih]

/-- Without width, depths do not show. -/
theorem map_render_zero (depth : Nat) (ls : List Text) :
    (place depth ls).map (Placed.render 0) = ls.map trim := by
  have hrender : Placed.render 0 = Placed.text := by
    funext p
    simp [Placed.render, spaces]
  rw [hrender, map_text_place]

theorem render_zero_deeper (p : Placed) : p.deeper.render 0 = p.render 0 := by
  simp [Placed.render]

/-! ### The two orders -/

theorem deepen_render {p : Placed} (hp : p ∈ place depth ls) :
    deepen s (p.render s.width) = p.deeper.render s.width := by
  rcases cases_of_mem_place hp with rfl | ⟨l, -, hblank, htext⟩
  · rw [Placed.deeper, if_pos rfl, render_empty]
    rfl
  · have hne : p.text ≠ [] := by
      rw [htext]
      exact mt trim_eq_nil_iff.1 hblank
    have hink : ¬ (p.render s.width).isBlank := by
      rwa [isBlank_iff_ink, ink_render, htext, ink_trim, ← isBlank_iff_ink]
    rw [deepen, if_neg hink, Placed.deeper, if_neg hne, Placed.render, Placed.render,
      Nat.succ_mul, Nat.add_comm, Settings.indent, spaces, spaces, spaces,
      ← List.replicate_append_replicate, List.append_assoc]

theorem trim_deepen (s : Settings) (l : Text) : trim (deepen s l) = trim l := by
  rw [deepen]
  split
  · rename_i h
    rw [trim_eq_nil_iff.2 h]
    rfl
  · exact trim_append_of_gap (gap_spaces _) l

theorem newline_not_mem_deepen (h : '\n' ∉ l) : '\n' ∉ deepen s l := by
  rw [deepen]
  split
  · exact List.not_mem_nil
  · intro hmem
    rcases List.mem_append.1 hmem with hmem | hmem
    · simp [Settings.indent, spaces] at hmem
    · exact h hmem

/-- Placed lines in an entry point, with its closing brace at a given depth. -/
def enclose (s : Settings) (ps : List Placed) (depth : Nat) : Text :=
  unlines (s.entryHeader :: ps.map (Placed.render s.width) ++
    [Placed.render s.width ⟨depth, ['\x7d']⟩])

/-- Indenting and then wrapping: every line moves one level deeper, the last brace stands at depth
zero. -/
theorem wrap_reindent (hlast : EndsInInk t.lines) :
    wrap s (reindent s.width t) = enclose s ((place 0 t.lines).map Placed.deeper) 0 := by
  have hlines : ∀ l ∈ t.lines, '\n' ∉ l := fun l hl => newline_not_mem_of_mem_lines hl
  have hdeeper : (place 0 t.lines).map (deepen s ∘ Placed.render s.width) =
      (place 0 t.lines).map (Placed.render s.width ∘ Placed.deeper) :=
    List.map_congr_left fun p hp => deepen_render hp
  have hbrace : Placed.render s.width ⟨0, ['\x7d']⟩ = ['\x7d'] := by simp [Placed.render, spaces]
  rw [wrap, reindent, reindentLines, lines_unlines_render hlines hlast, List.map_map, hdeeper,
    enclose, List.map_map, hbrace]

section NamedByWord

variable (hname : ∀ c ∈ s.entryPoint, isWord c)

include hname

theorem not_mem_entryHeader {c : Char} (hc : isWord c = false) (hother : c ∉ "fn () \x7b".toList) :
    c ∉ s.entryHeader := by
  have hword : c ∉ s.entryPoint := fun h => Bool.false_ne_true (hc ▸ hname c h)
  simp only [Settings.entryHeader, Settings.entrySignature] at *
  simp_all

theorem place_entryHeader (ls : List Text) :
    place 0 (s.entryHeader :: ls) = ⟨0, s.entryHeader⟩ :: place 1 ls := by
  have hform : s.entryHeader = 'f' :: ("n ".toList ++ s.entryPoint ++ "() ".toList ++ ['\x7b']) := by
    simp [Settings.entryHeader, Settings.entrySignature]
  have htrim : s.entryHeader.trim = s.entryHeader := by
    rw [hform]
    exact trim_eq_self rfl rfl _
  have hblank : ¬ s.entryHeader.isBlank := by
    rw [hform]
    exact Bool.false_ne_true
  have hopens : opens s.entryHeader := by
    have hslash : '/' ∉ s.entryHeader := not_mem_entryHeader hname rfl (by decide)
    have hlast : s.entryHeader.getLast? = some '\x7b' := by
      rw [hform, ← List.cons_append]
      exact List.getLast?_concat
    rw [opens, Comment.split, Comment.cut_eq_none_of_not_mem hslash, hlast]
    rfl
  have hcloses : closes s.entryHeader = false := by
    rw [hform]
    rfl
  rw [place_cons_of_ink hblank, htrim, depthAfter, if_pos hopens, depthAt, hcloses]
  rfl

/-- Wrapping and then indenting: the walk through the code begins at depth one. -/
theorem reindent_wrap (t : Text) :
    reindent s.width (wrap s t) =
      enclose s (place 1 t.lines) (finalDepth 1 t.lines - 1) := by
  have hlines : ∀ k ∈ s.entryHeader :: t.lines.map (deepen s), '\n' ∉ k := by
    refine List.forall_mem_cons.2 ⟨not_mem_entryHeader hname rfl (by decide), ?_⟩
    exact List.forall_mem_map.2 fun l hl =>
      newline_not_mem_deepen (newline_not_mem_of_mem_lines hl)
  have htrim : ((s.entryHeader :: t.lines.map (deepen s)).map dropReturn ++ [['\x7d']]).map trim =
      (s.entryHeader :: (t.lines ++ [['\x7d']])).map trim := by
    simp [trim_dropReturn, trim_deepen, Function.comp_def]
  have hbrace : place (finalDepth 1 t.lines) [['\x7d']] =
      [⟨finalDepth 1 t.lines - 1, ['\x7d']⟩] := rfl
  have hheader : Placed.render s.width ⟨0, s.entryHeader⟩ = s.entryHeader := by
    simp [Placed.render, spaces]
  rw [reindent, reindentLines, wrap, lines_unlines_append hlines (by decide) (by decide),
    place_congr htrim, place_entryHeader hname, place_append, hbrace, List.map_cons,
    List.map_append, hheader]
  rfl

theorem enclose_inj {ps qs : List Placed} {d e : Nat} (hps : ∀ p ∈ ps, '\n' ∉ p.text)
    (hqs : ∀ q ∈ qs, '\n' ∉ q.text) (hlength : ps.length = qs.length) :
    enclose s ps d = enclose s qs e ↔
      ps.map (Placed.render s.width) = qs.map (Placed.render s.width) ∧
        Placed.render s.width ⟨d, ['\x7d']⟩ = Placed.render s.width ⟨e, ['\x7d']⟩ := by
  have hwritten {ps : List Placed} {d : Nat} (hps : ∀ p ∈ ps, '\n' ∉ p.text) :
      ∀ l ∈ s.entryHeader :: ps.map (Placed.render s.width) ++
        [Placed.render s.width ⟨d, ['\x7d']⟩], '\n' ∉ l := by
    refine List.forall_mem_append.2 ⟨List.forall_mem_cons.2 ⟨?_, ?_⟩, ?_⟩
    · exact not_mem_entryHeader hname rfl (by decide)
    · exact List.forall_mem_map.2 fun p hp => newline_not_mem_render (hps p hp) _
    · exact List.forall_mem_singleton.2 (newline_not_mem_render (by simp) _)
  rw [enclose, enclose, unlines_inj (hwritten hps) (hwritten hqs) (by simp [hlength]),
    List.append_singleton_inj, List.cons.injEq]
  simp only [true_and]

/-- Wrapping and indenting can change places exactly if a level has no width, or if the code closes
no block at depth zero and leaves none open. -/
theorem reindent_wrap_eq_iff (hlast : EndsInInk t.lines) :
    reindent s.width (wrap s t) = wrap s (reindent s.width t) ↔
      s.width = 0 ∨ (ClosesInside 0 t.lines ∧ finalDepth 0 t.lines = 0) := by
  have htext (depth : Nat) : ∀ p ∈ place depth t.lines, '\n' ∉ p.text :=
    fun p hp => newline_not_mem_text (fun l hl => newline_not_mem_of_mem_lines hl) hp
  have hdeeper : ∀ p ∈ (place 0 t.lines).map Placed.deeper, '\n' ∉ p.text :=
    List.forall_mem_map.2 fun p hp => (text_deeper p).symm ▸ htext 0 p hp
  rw [reindent_wrap hname, wrap_reindent hlast, enclose_inj hname (htext 1) hdeeper (by simp)]
  rcases Nat.eq_zero_or_pos s.width with hwidth | hwidth
  · -- Both orders write the trimmed lines.
    have hzero : (place 0 t.lines).map (Placed.render 0 ∘ Placed.deeper) = t.lines.map trim :=
      (List.map_congr_left fun p _ => render_zero_deeper p).trans (map_render_zero 0 t.lines)
    rw [hwidth, map_render_zero, List.map_map, hzero]
    simp [Placed.render]
  · rw [render_place_succ_iff hwidth, render_inj hwidth, or_iff_right (Nat.ne_of_gt hwidth)]
    refine and_congr_right fun hinside => ?_
    rw [finalDepth_succ hinside, Nat.add_sub_cancel]

end NamedByWord

/-- A closed block can be wrapped first; a block that is left open cannot. -/
theorem reindent_wrap_eq_iff_block :
    let s : Settings := {}
    (∀ c ∈ s.entryPoint, isWord c) ∧
      (EndsInInk (lines "if a \x7b\nb;\n\x7d") ∧
        reindent s.width (wrap s "if a \x7b\nb;\n\x7d") =
          wrap s (reindent s.width "if a \x7b\nb;\n\x7d")) ∧
      EndsInInk (lines "if a \x7b\nb;") ∧
        reindent s.width (wrap s "if a \x7b\nb;") ≠ wrap s (reindent s.width "if a \x7b\nb;") := by
  intro s
  have hname : ∀ c ∈ s.entryPoint, isWord c := List.all_eq_true.1 (by decide)
  have hclosed : EndsInInk (lines "if a \x7b\nb;\n\x7d") := by decide
  have hopen : EndsInInk (lines "if a \x7b\nb;") := by decide
  refine ⟨hname, ⟨hclosed, (reindent_wrap_eq_iff hname hclosed).2 (.inr ⟨?_, by decide⟩)⟩, hopen,
    fun h => ?_⟩
  · exact closesInside_cons.2 ⟨by decide, closesInside_cons.2 ⟨by decide,
      closesInside_cons.2 ⟨by decide, closesInside_nil _⟩⟩⟩
  · rcases (reindent_wrap_eq_iff hname hopen).1 h with hwidth | ⟨-, hdepth⟩
    · exact absurd hwidth (by decide)
    · exact absurd hdepth (by decide)

end Oxidize.Layout
