import Oxidize.Generated.Tidy
import Oxidize.Proofs.Form.Growth
import Oxidize.Proofs.Layout.Final

/-!
# Tidying twice

Tidied code is made of lines that are not blank, indented anew. A second tidying takes the same
lines without their indentation (`flatLines_tidy`), so it changes nothing exactly if it does not
wrap them (`tidy_tidy_iff`). It does not: an entry point that the code has or got is still there
when its lines are trimmed, and so is the beginning of a function, unless it loses the space behind
its keyword because there is nothing else on its line (`needsWrap_tidy_iff`).
-/

namespace Oxidize.Generated

open Layout Pattern Text

variable {s : Settings} {code k l t w : Text} {ls : List Text}

/-! ### Flat lines -/

/-- The lines of the code that are not blank, from their first character on. -/
def flatLines (code : Text) : List Text :=
  (code.lines.map trimStart).filter fun l => !l.isEmpty

theorem flatten_eq (code : Text) : flatten code = unlines (flatLines code) :=
  rfl

theorem trimStart_eq_nil_iff : trimStart t = [] ↔ t.isBlank := by
  rw [← List.head?_eq_none_iff, head?_trimStart, List.head?_eq_none_iff, isBlank_iff_ink]

theorem exists_of_mem_flatLines (h : l ∈ flatLines code) :
    ∃ k ∈ code.lines, ¬ k.isBlank ∧ l = trimStart k := by
  obtain ⟨hmem, hne⟩ := List.mem_filter.1 h
  obtain ⟨k, hk, rfl⟩ := List.mem_map.1 hmem
  exact ⟨k, hk, mt trimStart_eq_nil_iff.2 (by simpa using hne), rfl⟩

theorem not_isBlank_of_mem_flatLines (h : l ∈ flatLines code) : ¬ l.isBlank := by
  obtain ⟨k, -, hk, rfl⟩ := exists_of_mem_flatLines h
  rwa [isBlank_iff_ink, ink_trimStart, ← isBlank_iff_ink]

theorem newline_not_mem_of_mem_flatLines (h : l ∈ flatLines code) : '\n' ∉ l := by
  obtain ⟨k, hk, -, rfl⟩ := exists_of_mem_flatLines h
  exact fun hmem => newline_not_mem_of_mem_lines hk (mem_of_mem_trimStart hmem)

/-- The first line that is not blank. -/
def firstLine? (code : Text) : Option Text :=
  code.lines.find? fun l => !l.isBlank

theorem head?_flatLines (code : Text) :
    (flatLines code).head? = (firstLine? code).map trimStart := by
  rw [flatLines, List.head?_filter, List.find?_map, firstLine?]
  congr 2
  funext l
  rw [Function.comp_apply, Bool.eq_iff_iff]
  simp [trimStart_eq_nil_iff]

/-- Up to white space at their ends, the lines of the flat text are the flat lines. -/
theorem map_trim_lines_flatten (code : Text) :
    (flatten code).lines.map trim = (flatLines code).map trim := by
  have hline : ∀ l ∈ flatLines code, '\n' ∉ l := fun l hl => newline_not_mem_of_mem_flatLines hl
  have hink : ∀ l ∈ flatLines code, l ≠ [] := by
    rintro l hl rfl
    exact not_isBlank_of_mem_flatLines hl rfl
  rw [flatten_eq]
  rcases List.eq_nil_or_concat (flatLines code) with hnil | ⟨ls, l, hls⟩
  · rw [hnil]
    rfl
  · rw [hls, List.concat_eq_append] at hline hink ⊢
    obtain ⟨hinit, hlast⟩ := List.forall_mem_append.1 hline
    rw [lines_unlines_append hinit (hlast l (by simp)) (hink l (by simp))]
    simp [trim_dropReturn, Function.comp_def]

/-! ### Printing calls -/

/-- The beginning of the printing calls that are mended. -/
def callBeginning : Text :=
  "println!(\"\x7b\x7d\",\""

/-- Code in which there is nothing to mend. -/
def Mended (code : Text) : Prop :=
  ∀ l ∈ flatLines code, ¬ callBeginning <:+: l

theorem prefix_of_reads_printing {ps : List (Pattern Field)} {fs : List (Field × Text)}
    (h : (sequence (printing :: ps)).Reads t fs) : callBeginning <+: t := by
  obtain ⟨_, w, _, _, ⟨⟨_, v, _, _, ⟨⟨rfl, -⟩, -⟩, rfl, -⟩, -⟩, rfl, -⟩ := h
  rw [List.append_assoc]
  exact List.prefix_append callBeginning (v ++ w)

theorem mendPrinting_eq_self (h : ¬ callBeginning <:+: t) : mendPrinting t = t := by
  have hnone {f : Form} {ps : List (Pattern Field)} (hf : f.pattern = sequence (printing :: ps)) :
      f.pattern.find? t = none := by
    refine Form.find?_eq_none_of_infix ?_ h
    rintro x y ⟨m, hm, -⟩
    rw [hf] at hm
    exact (prefix_of_reads_printing hm).isInfix
  exact Form.recastWith_eq_self
    (List.forall_mem_cons.2 ⟨hnone rfl, List.forall_mem_singleton.2 (hnone rfl)⟩)

theorem mended_of_not_infix (h : ¬ callBeginning <:+: code) : Mended code := by
  intro l hl hcall
  obtain ⟨k, hk, -, rfl⟩ := exists_of_mem_flatLines hl
  exact h (hcall.trans ((List.dropWhile_suffix _).isInfix.trans (infix_of_mem_lines hk)))

theorem Mended.mendPrinting_flatten (h : Mended code) :
    mendPrinting (flatten code) = flatten code := by
  refine mendPrinting_eq_self fun hcall => ?_
  rw [flatten_eq, infix_unlines (by decide) (by decide)] at hcall
  obtain ⟨l, hl, hcall⟩ := hcall
  exact h l hl hcall

/-! ### Tidied code -/

/-- The lines of tidied code, before they are indented. -/
def tidyLines (s : Settings) (code : Text) : List Text :=
  if needsWrap s (flatten code) then s.entryHeader :: flatLines code ++ [['\x7d']]
  else flatLines code

theorem forall_mem_tidyLines {P : Text → Prop} (hheader : P s.entryHeader) (hbrace : P ['\x7d'])
    (hflat : ∀ l ∈ flatLines code, P l) : ∀ l ∈ tidyLines s code, P l := by
  rw [tidyLines]
  split
  · exact List.forall_mem_append.2
      ⟨List.forall_mem_cons.2 ⟨hheader, hflat⟩, List.forall_mem_singleton.2 hbrace⟩
  · exact hflat

theorem not_isBlank_of_mem_tidyLines : ∀ l ∈ tidyLines s code, ¬ l.isBlank :=
  forall_mem_tidyLines Bool.false_ne_true (by decide) fun _ hl => not_isBlank_of_mem_flatLines hl

theorem endsInInk_tidyLines (s : Settings) (code : Text) : EndsInInk (tidyLines s code) :=
  fun l hl => not_isBlank_of_mem_tidyLines l (List.mem_of_getLast? hl)

theorem not_isBlank_render {depth : Nat} {p : Placed} (hls : ∀ l ∈ ls, ¬ l.isBlank)
    (hp : p ∈ place depth ls) (width : Nat) : ¬ (p.render width).isBlank := by
  have htext : p.text ∈ ls.map trim := map_text_place depth ls ▸ List.mem_map_of_mem hp
  obtain ⟨l, hl, htrim⟩ := List.mem_map.1 htext
  rw [isBlank_iff_ink, ink_render, ← htrim, ink_trim, ← isBlank_iff_ink]
  exact hls l hl

theorem trimStart_render {depth : Nat} {p : Placed} (hp : p ∈ place depth ls) (width : Nat) :
    trimStart (p.render width) = p.text := by
  rw [Placed.render, trimStart_append_of_gap (gap_spaces _)]
  rcases cases_of_mem_place hp with rfl | ⟨l, -, -, htext⟩
  · rfl
  · rw [htext]
    have hhead := isSpace_of_head?_trim l
    cases htrim : l.trim with
    | nil => rfl
    | cons c r => simp [trimStart, hhead c (by rw [htrim]; rfl)]

section NamedByWord

variable (hname : ∀ c ∈ s.entryPoint, isWord c)

include hname

theorem newline_not_mem_of_mem_tidyLines : ∀ l ∈ tidyLines s code, '\n' ∉ l :=
  forall_mem_tidyLines (not_mem_entryHeader hname rfl (by decide)) (by decide)
    fun _ hl => newline_not_mem_of_mem_flatLines hl

theorem tidy_eq (hcode : Mended code) :
    tidy s code = unlines (reindentLines s.width (tidyLines s code)) := by
  have hword : '\n' ∉ s.entryPoint := fun h => Bool.false_ne_true (hname _ h)
  have hlines : (if needsWrap s (flatten code) then wrap s (flatten code)
      else flatten code).lines.map trim = (tidyLines s code).map trim := by
    rw [tidyLines]
    split
    · rw [map_trim_lines_wrap hword, map_trim_lines_flatten, List.map_append]
      rfl
    · exact map_trim_lines_flatten code
  simp only [tidy, hcode.mendPrinting_flatten]
  rw [reindent, reindentLines, place_congr hlines, reindentLines]

theorem lines_tidy (hcode : Mended code) :
    (tidy s code).lines = reindentLines s.width (tidyLines s code) := by
  rw [tidy_eq hname hcode]
  exact lines_unlines_render (newline_not_mem_of_mem_tidyLines hname) (endsInInk_tidyLines s code)
    s.width

/-- A second tidying begins with the lines that the first one indented. -/
theorem flatLines_tidy (hcode : Mended code) :
    flatLines (tidy s code) = (tidyLines s code).map trim := by
  have hstart : (lines (tidy s code)).map trimStart = (tidyLines s code).map trim := by
    rw [lines_tidy hname hcode, reindentLines, List.map_map, ← map_text_place 0]
    exact List.map_congr_left fun p hp => trimStart_render hp s.width
  rw [flatLines, hstart, List.filter_eq_self, List.forall_mem_map]
  intro l hl
  have hne : l.trim ≠ [] := mt trim_eq_nil_iff.1 (not_isBlank_of_mem_tidyLines l hl)
  simpa using hne

theorem mended_tidy (hcode : Mended code) : Mended (tidy s code) := by
  have hall : ∀ l ∈ tidyLines s code, ¬ callBeginning <:+: l := by
    refine forall_mem_tidyLines (fun h => ?_) (by decide) hcode
    have hmark : '!' ∉ s.entryHeader := not_mem_entryHeader hname rfl (by decide)
    exact hmark (h.subset (by decide))
  rw [Mended, flatLines_tidy hname hcode, List.forall_mem_map]
  exact fun l hl h => hall l hl (h.trans (trim_isInfix l))

/-- Tidying again changes nothing exactly if it does not wrap the code. -/
theorem tidy_tidy_iff (hcode : Mended code) :
    tidy s (tidy s code) = tidy s code ↔ ¬ needsWrap s (flatten (tidy s code)) := by
  have htwice := mended_tidy hname hcode
  constructor
  · intro h hwrap
    have hlength : (tidy s (tidy s code)).lines.length = (tidy s code).lines.length + 2 := by
      rw [lines_tidy hname htwice, lines_tidy hname hcode, tidyLines, if_pos hwrap,
        flatLines_tidy hname hcode]
      simp [reindentLines]
    rw [h] at hlength
    omega
  · intro hwrap
    have hplace : place 0 ((tidyLines s code).map trim) = place 0 (tidyLines s code) :=
      place_congr (by simp [trim_trim, Function.comp_def]) 0
    rw [tidy_eq hname htwice, tidyLines, if_neg hwrap, flatLines_tidy hname hcode, reindentLines,
      hplace, tidy_eq hname hcode, reindentLines]

end NamedByWord

/-! ### Wrapping again -/

/-- On the first line that is not blank there is only the keyword of a function, with a space behind
it. -/
def BareFunction (code : Text) : Prop :=
  ∃ l ∈ firstLine? code, trim l = "fn" ∧ "fn ".toList <+: trimStart l

instance (code : Text) : Decidable (BareFunction code) :=
  inferInstanceAs (Decidable (∃ l ∈ firstLine? code, _))

theorem needsWrap_unlines_iff (hline : '\n' ∉ s.entrySignature) (ls : List Text) :
    needsWrap s (unlines ls) ↔
      s.wrap ∧ (¬ ∃ l ∈ ls, s.entrySignature <:+: l) ∧ ¬ ∃ l ∈ ls.head?, "fn ".toList <+: l := by
  have hne : s.entrySignature ≠ [] := List.cons_ne_nil _ _
  have hbegins : startsWith (unlines ls) "fn " ↔ "fn ".toList <+: unlines ls :=
    List.isPrefixOf_iff_prefix
  rw [← infix_unlines hne hline, ← prefix_unlines (by decide) (by decide), ← hasEntryPoint_iff,
    ← hbegins]
  simp [needsWrap, and_assoc]

/-- The space behind the keyword is lost if there is nothing behind it. -/
theorem keyword_prefix_trimEnd_iff :
    "fn ".toList <+: trimEnd t ↔ "fn ".toList <+: t ∧ trimEnd t ≠ "fn" := by
  obtain ⟨g, hg, ht⟩ := trimEnd_spec t
  constructor
  · intro h
    refine ⟨ht ▸ h.trans (List.prefix_append _ g), fun heq => ?_⟩
    rw [heq] at h
    exact absurd h (by decide)
  · rintro ⟨⟨w, rfl⟩, hne⟩
    have hink : trimEnd w ≠ [] := by
      intro hnil
      have hw : Gap w := by
        rw [← isBlank_iff_gap, ← isBlank_trimEnd, hnil]
        rfl
      exact hne (trimEnd_append_of_gap hw "fn ")
    rw [trimEnd_append_of_ne_nil hink]
    exact List.prefix_append _ _

theorem signature_infix_trim_iff (s : Settings) (l : Text) :
    s.entrySignature <:+: trim l ↔ s.entrySignature <:+: l := by
  have hsignature :
      s.entrySignature = 'f' :: ("n ".toList ++ s.entryPoint ++ "(".toList) ++ [')'] := by
    simp [Settings.entrySignature]
  rw [hsignature]
  exact infix_trim_iff rfl rfl

/-- Trimming the lines takes no entry point away. -/
theorem needsWrap_map_trim_iff (hline : '\n' ∉ s.entrySignature) (ls : List Text) :
    needsWrap s (unlines (ls.map trim)) ↔ s.wrap ∧
      (¬ ∃ l ∈ ls, s.entrySignature <:+: l) ∧ ¬ ∃ l ∈ ls.head?, "fn ".toList <+: trim l := by
  have hsignature : (∃ l ∈ ls.map trim, s.entrySignature <:+: l) ↔
      ∃ l ∈ ls, s.entrySignature <:+: l := by
    constructor
    · rintro ⟨_, hl, h⟩
      obtain ⟨k, hk, rfl⟩ := List.mem_map.1 hl
      exact ⟨k, hk, (signature_infix_trim_iff s k).1 h⟩
    · rintro ⟨k, hk, h⟩
      exact ⟨_, List.mem_map_of_mem hk, (signature_infix_trim_iff s k).2 h⟩
  rw [needsWrap_unlines_iff hline, hsignature, List.head?_map]
  simp

section NamedByWord

variable (hname : ∀ c ∈ s.entryPoint, isWord c)

include hname

/-- Tidied code is wrapped again exactly if it has no entry point and begins with a function whose
keyword stands alone. -/
theorem needsWrap_tidy_iff (hcode : Mended code) :
    needsWrap s (flatten (tidy s code)) ↔
      s.wrap ∧ ¬ s.entrySignature <:+: flatten code ∧ BareFunction code := by
  have hline : '\n' ∉ s.entrySignature :=
    newline_not_mem_entrySignature fun h => Bool.false_ne_true (hname _ h)
  have hne : s.entrySignature ≠ [] := List.cons_ne_nil _ _
  have hfirst := needsWrap_unlines_iff hline (flatLines code)
  rw [flatten_eq (tidy s code), flatLines_tidy hname hcode, needsWrap_map_trim_iff hline, flatten_eq,
    infix_unlines hne hline]
  rw [← flatten_eq, head?_flatLines] at hfirst
  by_cases hwrap : needsWrap s (flatten code)
  · -- The header holds the signature.
    have hheader : s.entrySignature <:+: s.entryHeader := (List.prefix_append _ _).isInfix
    have hhas : ∃ l ∈ tidyLines s code, s.entrySignature <:+: l := by
      rw [tidyLines, if_pos hwrap]
      exact ⟨_, List.mem_append_left _ List.mem_cons_self, hheader⟩
    have hbare : ¬ BareFunction code := by
      rintro ⟨l, hl, -, hbegins⟩
      exact (hfirst.1 hwrap).2.2 ⟨_, Option.mem_map_of_mem _ hl, hbegins⟩
    simp only [hhas, hbare, not_true, and_false, false_and]
  · rw [hfirst] at hwrap
    rw [tidyLines, if_neg (mt hfirst.1 hwrap), head?_flatLines]
    refine and_congr_right fun hasked => and_congr_right fun hentry => ?_
    -- Without an entry point, the code is not wrapped because it begins with a function.
    obtain ⟨l, hl, hbegins⟩ : ∃ l ∈ (firstLine? code).map trimStart, "fn ".toList <+: l :=
      Decidable.not_not.1 fun h => hwrap ⟨hasked, hentry, h⟩
    obtain ⟨k, hk, rfl⟩ := Option.map_eq_some_iff.1 hl
    have htrim : trim (trimStart k) = trim k := by rw [trim, trimStart_trimStart, trim]
    have hlost : ¬ "fn ".toList <+: trim k ↔ trim k = "fn" ∧ "fn ".toList <+: trimStart k := by
      rw [trim, keyword_prefix_trimEnd_iff, not_and, Ne, Decidable.not_not]
      exact ⟨fun h => ⟨h hbegins, hbegins⟩, fun h _ => h.1⟩
    simp only [BareFunction, hk, Option.map_some, Option.mem_def, Option.some.injEq, exists_eq_left',
      htrim, hlost]

end NamedByWord

/-- If nothing is mended, tidying twice is tidying once: the second time the code is not wrapped. No
line of tidied code is blank. The exception is code that begins with a function whose keyword stands
alone; it is wrapped the second time, unless it has an entry point or none is asked for. -/
theorem tidy_tidy (hname : ∀ c ∈ s.entryPoint, isWord c)
    (hcode : ¬ "println!(\"\x7b\x7d\",\"".toList <:+: code) :
    (¬ BareFunction code → tidy s (tidy s code) = tidy s code ∧
      needsWrap s (mendPrinting (flatten (tidy s code))) = false) ∧
    (∀ l ∈ (tidy s code).lines, ¬ l.isBlank) ∧
    (BareFunction code → (tidy s (tidy s code) = tidy s code ↔
      ¬ (s.wrap ∧ ¬ s.entrySignature <:+: flatten code))) := by
  have hmended := mended_of_not_infix hcode
  have hwrap := needsWrap_tidy_iff hname hmended
  refine ⟨fun hbare => ?_, ?_, fun hbare => ?_⟩
  · have hkept : ¬ needsWrap s (flatten (tidy s code)) := fun h => hbare (hwrap.1 h).2.2
    rw [(mended_tidy hname hmended).mendPrinting_flatten]
    exact ⟨(tidy_tidy_iff hname hmended).2 hkept, Bool.eq_false_iff.2 hkept⟩
  · rw [lines_tidy hname hmended, reindentLines, List.forall_mem_map]
    exact fun p hp => not_isBlank_render not_isBlank_of_mem_tidyLines hp s.width
  · rw [tidy_tidy_iff hname hmended, hwrap]
    simp only [hbare, and_true]

/-- A stray brace and a block that is left open, wrapped once; and a keyword alone on its line. -/
theorem tidy_tidy_stray_brace :
    let s : Settings := {}
    let stray : Text := "\x7d\n\n  fn a() \x7b\t"
    let bare : Text := " fn \nf();"
    (∀ c ∈ s.entryPoint, isWord c) ∧
      (¬ "println!(\"\x7b\x7d\",\"".toList <:+: stray ∧ ¬ BareFunction stray ∧
        tidy s (tidy s stray) = tidy s stray) ∧
      ¬ "println!(\"\x7b\x7d\",\"".toList <:+: bare ∧ BareFunction bare ∧
        tidy s (tidy s bare) ≠ tidy s bare := by
  intro s stray bare
  have hname : ∀ c ∈ s.entryPoint, isWord c := List.all_eq_true.1 (by decide)
  have hstray : ¬ "println!(\"\x7b\x7d\",\"".toList <:+: stray := by decide +kernel
  have hbare : ¬ "println!(\"\x7b\x7d\",\"".toList <:+: bare := by decide +kernel
  have hkept : ¬ BareFunction stray := by decide +kernel
  have hlost : BareFunction bare := by decide +kernel
  refine ⟨hname, ⟨hstray, hkept, ((tidy_tidy hname hstray).1 hkept).1⟩, hbare, hlost, fun h => ?_⟩
  have hentry : ¬ s.entrySignature <:+: flatten bare := by decide +kernel
  exact ((tidy_tidy hname hbare).2.2 hlost).1 h ⟨rfl, hentry⟩

example : tidy {} "\x7d\n\n  fn a() \x7b\t" =
    "fn main() \x7b\n\x7d\nfn a() \x7b\n\x7d".toList := by
  decide +kernel

end Oxidize.Generated
