import Oxidize.Proofs.Line.Quotes
import Oxidize.Proofs.Text.Unlines

/-!
# Comments of converted lines

The conversion of a line is the conversion of its code with the comment behind it. Nothing looks at
the comment: cut again, the code of a line has none (`Comment.split_fst`), so that it is converted
on its own as it is in front of its comment. The converted line has the same comment, since no form
brings a slash into the code or moves the end of a literal (`trim_split_convert`).

* `trim_split_append`, the comment of a line behind other code;
* `convert_split`, the two statements about `convert`.
-/

namespace Oxidize

open Text

namespace Comment

variable {line u : Text}

/-- Behind other code without slashes a comment is found again, if that code ends outside of
literals where the old code does. White space in front of the mark is part of the comment. -/
theorem trim_split_append (hcode : '\\' ∉ (split line).1) (hu : '/' ∉ u)
    (hafter : Quoting.after isQuote .code (split line).1 = .code →
      Quoting.after isQuote .code u = .code)
    (hnil : (split line).1 = [] → u = []) :
    (split (u ++ (split line).2)).2.trim = (split line).2.trim := by
  rcases split_cases line with hsplit | ⟨g, r, hg, hcomment, hend, hbefore, hempty⟩
  · -- The line has no comment, and the new code brings none.
    rw [hsplit, List.append_nil, split, cut_eq_none_of_not_mem hu]
  · have hends : Quoting.after isQuote .code (u ++ g) = .code := by
      rw [Quoting.after_append, (settled_code.after hcode).after_gap hg] at hend
      rw [Quoting.after_append, hafter hend, settled_code.after_gap hg]
    have hslash : '/' ∉ u ++ g := by
      rw [List.mem_append, not_or]
      exact ⟨hu, hg.not_mem rfl⟩
    have hlast : ((u ++ g).getLast?.or none).all isAsciiSpace := by
      rw [Option.or_none]
      cases hg : g with
      | nil => simp [hnil (hempty hg)]
      | cons c g => simpa [hg, List.getLast?_cons] using hbefore
    have hcut := cut_append_mark hslash hends hlast r
    obtain ⟨hgap, -⟩ := drop_length_trimEnd (u ++ g)
    rw [hcomment, ← List.append_assoc, split, hcut, trim_append_of_gap hgap, trim_append_of_gap hg]

end Comment

namespace Line

variable {line : Text}

/-- A line is converted as its code is, and its comment stands behind. -/
theorem convert_eq_convert_append (line : Text) :
    convert line = convert (Comment.split line).1 ++ (Comment.split line).2 := by
  rw [convert_eq, convert_eq (Comment.split line).1, Comment.split_fst]
  split
  · rw [Comment.split_append]
  · rw [List.append_nil]

/-- The comment of a converted line is the comment of the line. -/
theorem trim_split_convert (hslash : '/' ∉ (Comment.split line).1)
    (hbackslash : '\\' ∉ (Comment.split line).1) :
    (Comment.split (convert line)).2.trim = (Comment.split line).2.trim := by
  rw [convert_eq]
  split
  · rfl
  · rename_i hblank
    refine Comment.trim_split_append hbackslash (not_mem_convertCode (by simp [IsForeign]) hslash)
      (after_convertCode hbackslash) fun hcode => ?_
    simp [hcode, isBlank] at hblank

/-- A comment is neither read nor changed: it stands behind what the code alone becomes. If the code
holds no slash and no backslash, the converted line is cut at the same comment. -/
theorem convert_split (line : Text) :
    convert line = convert (Comment.split line).1 ++ (Comment.split line).2 ∧
      ('/' ∉ (Comment.split line).1 → '\\' ∉ (Comment.split line).1 →
        (Comment.split (convert line)).2.trim = (Comment.split line).2.trim) :=
  ⟨convert_eq_convert_append line, trim_split_convert⟩

/-- Of two membership tests, the one in the code is converted and the one in the comment is kept. -/
theorem convert_split_literal :
    ('/' ∉ (Comment.split "if 'a' in xs:  // \"b\" in ys ").1 ∧
        '\\' ∉ (Comment.split "if 'a' in xs:  // \"b\" in ys ").1) ∧
      convert "if 'a' in xs:  // \"b\" in ys " =
        convert "if 'a' in xs:" ++ "  // \"b\" in ys ".toList ∧
      (Comment.split (convert "if 'a' in xs:  // \"b\" in ys ")).2.trim =
        "// \"b\" in ys".toList := by
  have hslash : '/' ∉ (Comment.split "if 'a' in xs:  // \"b\" in ys ").1 := by decide +kernel
  have hbackslash : '\\' ∉ (Comment.split "if 'a' in xs:  // \"b\" in ys ").1 := by decide +kernel
  have hsplit : Comment.split "if 'a' in xs:  // \"b\" in ys " =
      ("if 'a' in xs:".toList, "  // \"b\" in ys ".toList) := by
    decide +kernel
  obtain ⟨hconvert, htrim⟩ := convert_split "if 'a' in xs:  // \"b\" in ys "
  refine ⟨⟨hslash, hbackslash⟩, ?_, ?_⟩
  · rw [hconvert, hsplit]
  · rw [htrim hslash hbackslash, hsplit]
    decide +kernel

end Line

end Oxidize
