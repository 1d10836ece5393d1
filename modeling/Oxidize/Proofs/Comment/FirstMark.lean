import Oxidize.Proofs.Comment.Split
import Oxidize.Proofs.Text.Bytes
import Oxidize.Proofs.Text.Literals

/-!
# The first comment mark

Two slashes begin a comment if they stand outside of literals and at the start of the line or behind
white space of ASCII (`MarkBehind`). `split` cuts at the first place of this kind and nowhere else,
and it moves the white space before the mark to the comment (`split_at_first_mark`).

All that the scan looks for is one byte long. So a scan over the bytes of a line finds the mark in
the same place, between two characters (`cut_bytes`), although it goes one byte ahead where an
escape takes a character, and looks one byte back and one ahead around a slash.
-/

namespace Oxidize.Comment

open Text

variable {s : Quoting} {c : Char} {line v w comment : Text}

/-! ### A scan over bytes -/

/-- The literal in which the scan stands, if any, was opened by a quote. -/
def Opened (s : Quoting) : Prop :=
  Settled s ∨ ∃ q, isQuote q ∧ s = .escape q

theorem Opened.next (hs : Opened s) (c : Char) : Opened (s.next isQuote c) := by
  rcases hs with hs | ⟨q, hq, rfl⟩
  · by_cases hc : c = '\\'
    · rcases hs with rfl | ⟨q, hq, rfl⟩
      · exact .inl (.inl (hc ▸ rfl))
      · exact .inr ⟨q, hq, if_pos hc⟩
    · exact .inl (hs.next hc)
  · exact .inl (.inr ⟨q, hq, rfl⟩)

theorem isQuote_of_not_ascii (hc : isAscii c = false) : isQuote c = false := by
  have hdouble : c ≠ '"' := ne_of_isAscii_eq_false hc rfl
  have hsingle : c ≠ '\'' := ne_of_isAscii_eq_false hc rfl
  simp [isQuote, hdouble, hsingle]

theorem isAsciiSpace_of_not_ascii (hc : isAscii c = false) : isAsciiSpace c = false := by
  rw [Bool.eq_false_iff]
  intro h
  simp only [isAsciiSpace, Bool.or_eq_true, decide_eq_true_eq] at h
  rcases h with (((rfl | rfl) | rfl) | rfl) | rfl <;> cases hc

theorem Settled.after_of_not_ascii (hs : Settled s) (hw : ∀ b ∈ w, isAscii b = false) :
    s.after isQuote w = s := by
  have hslash : '\\' ∉ w := fun h => Bool.false_ne_true (hw _ h).symm
  rw [hs.after_eq_after_marks hslash, marks_eq_nil fun b hb => isQuote_of_not_ascii (hw b hb),
    Quoting.after_nil]

/-- The bytes of a character take the scan where the character itself does: behind a backslash the
first one is escaped, and the others are no quotes. -/
theorem Opened.after_charBytes (hs : Opened s) (c : Char) :
    s.after isQuote (charBytes c) = s.next isQuote c := by
  cases hc : isAscii c with
  | true => rw [charBytes_of_isAscii hc, Quoting.after_cons, Quoting.after_nil]
  | false =>
    have hbytes (b : Char) (hb : b ∈ charBytes c) : isAscii b = false :=
      isAscii_of_mem_charBytes hc hb
    rcases hs with hs | ⟨q, hq, rfl⟩
    · have hslash : c ≠ '\\' := ne_of_isAscii_eq_false hc rfl
      rw [hs.after_of_not_ascii hbytes, hs.next_eq hslash (isQuote_of_not_ascii hc)]
    · obtain ⟨b, u, hu⟩ := List.exists_cons_of_ne_nil (charBytes_ne_nil c)
      rw [hu] at hbytes ⊢
      have hliteral : Settled (.literal q) := .inr ⟨q, hq, rfl⟩
      exact hliteral.after_of_not_ascii fun b hb => hbytes b (List.mem_cons_of_mem _ hb)

/-- No byte of a character outside of ASCII is a slash or white space. -/
theorem getLast?_charBytes_of_not_ascii (hc : isAscii c = false) (before : Option Char) :
    '/' ∉ charBytes c ∧
      ((charBytes c).getLast?.or before).all isAsciiSpace = (some c).all isAsciiSpace := by
  refine ⟨fun h => Bool.false_ne_true (isAscii_of_mem_charBytes hc h).symm, ?_⟩
  have hlast := isAscii_of_mem_charBytes hc (List.getLast_mem (charBytes_ne_nil c))
  rw [List.getLast?_eq_some_getLast (charBytes_ne_nil c), Option.some_or, Option.all_some,
    Option.all_some, isAsciiSpace_of_not_ascii hlast, isAsciiSpace_of_not_ascii hc]

/-- A scan over bytes cuts where the scan over characters does. -/
theorem cut_bytes (hs : Opened s) (before : Option Char) (t : Text) :
    cut s before (bytes t) = (cut s before t).map (Prod.map bytes bytes) := by
  induction t generalizing s before with
  | nil => rfl
  | cons c t ih =>
    cases hc : isAscii c with
    | true =>
      have hbegins : beginsAt before (c :: bytes t) = beginsAt before (c :: t) := by
        rw [Bool.eq_iff_iff, beginsAt_cons, beginsAt_cons, head?_bytes_eq_some_iff rfl]
      rw [bytes_cons, charBytes_of_isAscii hc, List.singleton_append, cut_cons, cut_cons, hbegins,
        ih (hs.next c)]
      split
      · simp [charBytes_of_isAscii hc]
      · simp [Function.comp_def, charBytes_of_isAscii hc]
    | false =>
      -- The scan passes all bytes of the character at once and behind them sees no white space.
      obtain ⟨hslash, hlast⟩ := getLast?_charBytes_of_not_ascii hc before
      have hne : c ≠ '/' := ne_of_isAscii_eq_false hc rfl
      rw [bytes_cons, cut_append_of_not_mem hslash, hs.after_charBytes, cut_congr hlast,
        ih (hs.next c), cut_cons, beginsAt_cons_of_ne hne]
      simp [Function.comp_def]

/-! ### The first mark -/

/-- Behind `w` a comment can begin: two slashes stand there, outside of literals and at the start of
the line or behind white space of ASCII. -/
def MarkBehind (line w : Text) : Prop :=
  w ++ ['/', '/'] <+: line ∧ Quoting.Outside isQuote w ∧ w.getLast?.all isAsciiSpace

theorem markBehind_of_cut (h : cut .code none line = some (w, comment)) : MarkBehind line w := by
  obtain ⟨hs, hbefore, r, rfl⟩ := spec_of_cut h
  rw [Option.or_none] at hbefore
  refine ⟨⟨r, ?_⟩, (Quoting.after_eq_code_iff rfl).1 hs, hbefore⟩
  rw [← append_of_cut h, List.append_assoc]
  rfl

theorem MarkBehind.exists_cut (h : MarkBehind line v) :
    ∃ w comment, cut .code none line = some (w, comment) ∧ w.length ≤ v.length := by
  obtain ⟨⟨r, rfl⟩, houtside, hbefore⟩ := h
  rw [← Option.or_none (o := v.getLast?)] at hbefore
  rw [List.append_assoc]
  exact exists_cut_of_mark ((Quoting.after_eq_code_iff rfl).2 houtside) hbefore r

/-- A cut is at the first mark. -/
theorem length_le_of_cut (h : cut .code none line = some (w, comment)) (hv : MarkBehind line v) :
    w.length ≤ v.length := by
  obtain ⟨w', comment', hcut, hle⟩ := hv.exists_cut
  obtain ⟨rfl, -⟩ : w' = w ∧ comment' = comment := by simpa [h] using hcut.symm
  exact hle

theorem exists_comment_iff (line : Text) : (split line).2 ≠ [] ↔ ∃ w, MarkBehind line w := by
  rw [split]
  cases hcut : cut .code none line with
  | none =>
    refine iff_of_false (fun h => h rfl) ?_
    rintro ⟨w, hw⟩
    obtain ⟨w', comment, hcut', -⟩ := hw.exists_cut
    simp [hcut] at hcut'
  | some halves =>
    obtain ⟨w, comment⟩ := halves
    obtain ⟨-, -, r, rfl⟩ := spec_of_cut hcut
    exact iff_of_true (by simp) ⟨w, markBehind_of_cut hcut⟩

/-- The first mark is where the cut is. -/
theorem MarkBehind.cut_eq (hw : MarkBehind line w)
    (hfirst : ∀ v, MarkBehind line v → w.length ≤ v.length) :
    cut .code none line = some (w, line.drop w.length) := by
  obtain ⟨w', comment, hcut, hle⟩ := hw.exists_cut
  have hline := append_of_cut hcut
  have hlength : w'.length = w.length :=
    Nat.le_antisymm hle (hfirst w' (markBehind_of_cut hcut))
  have hbegin : w' <+: line := ⟨comment, hline⟩
  have hbegin' : w <+: line := (List.prefix_append w _).trans hw.1
  obtain rfl : w' = w :=
    (List.prefix_of_prefix_length_le hbegin hbegin' hle).eq_of_length hlength
  rw [hcut, ← hline, List.drop_left]

/-- The two halves of a line are the line, and its bytes are cut between the same characters. There is
a comment exactly if there is a mark, and then it is the white space before the first mark with all
that follows, and the code ends in no white space. The code holds no comment of its own. -/
theorem split_at_first_mark (line : Text) :
    ((split line).1 ++ (split line).2 = line ∧
      cut .code none (bytes line) = (cut .code none line).map (Prod.map bytes bytes)) ∧
    ((split line).2 ≠ [] ↔ ∃ w, MarkBehind line w) ∧
    (∀ w, MarkBehind line w → (∀ v, MarkBehind line v → w.length ≤ v.length) →
      ∃ g, Gap g ∧ w = (split line).1 ++ g ∧ (split line).2 = g ++ line.drop w.length ∧
        ∀ c ∈ (split line).1.getLast?, isSpace c = false) ∧
    split (split line).1 = ((split line).1, []) := by
  refine ⟨⟨split_append line, cut_bytes (.inl settled_code) none line⟩, exists_comment_iff line,
    fun w hw hfirst => ?_, split_fst line⟩
  obtain ⟨hgap, hcode⟩ := drop_length_trimEnd w
  rw [split, hw.cut_eq hfirst]
  refine ⟨w.drop w.trimEnd.length, hgap, hcode.symm, rfl, fun c hc => ?_⟩
  rw [getLast?_trimEnd] at hc
  exact (mem_ink.1 (List.mem_of_getLast? hc)).2

/-- The slashes in the literal, behind an escaped character of two bytes, are no mark. Of the marks
behind it the first one counts, and a space of two bytes is cut off with the space of ASCII. -/
theorem split_at_first_mark_literal :
    (MarkBehind "'\\é //'\u00a0 // a // b" "'\\é //'\u00a0 " ∧
      ∀ v, MarkBehind "'\\é //'\u00a0 // a // b" v →
        "'\\é //'\u00a0 ".toList.length ≤ v.length) ∧
    (∃ g, Gap g ∧ "'\\é //'\u00a0 ".toList = (split "'\\é //'\u00a0 // a // b").1 ++ g ∧
      (split "'\\é //'\u00a0 // a // b").2 = g ++ "// a // b".toList) ∧
    split "'\\é //'\u00a0 // a // b" = ("'\\é //'".toList, "\u00a0 // a // b".toList) := by
  have hcut : cut .code none "'\\é //'\u00a0 // a // b" =
      some ("'\\é //'\u00a0 ".toList, "// a // b".toList) := by
    decide +kernel
  have hmark := markBehind_of_cut hcut
  have hfirst (v : Text) (hv : MarkBehind _ v) := length_le_of_cut hcut hv
  obtain ⟨-, -, hhalves, -⟩ := split_at_first_mark "'\\é //'\u00a0 // a // b"
  obtain ⟨g, hg, hw, hcomment, -⟩ := hhalves _ hmark hfirst
  exact ⟨⟨hmark, hfirst⟩, ⟨g, hg, hw, hcomment⟩, by decide +kernel⟩

end Oxidize.Comment
