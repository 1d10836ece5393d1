import Oxidize.Proofs.Comment.Split
import Oxidize.Proofs.Form.Indent
import Oxidize.Proofs.Layout.Walk
import Oxidize.Proofs.Line.Stages

/-!
# The indentation of a script

The conversion of a line does not read its indentation: white space in front of a line comes back in
front of what the line becomes (`convert_append`). Each stage keeps it, the cut before the comment,
headers, inline forms and endings. The layout trims all lines, so that the indentation of a script
leaves no trace in the code (`convert_append_indent`).
-/

namespace Oxidize.Line

open Form Text

variable {w l : Text} {ls ks : List Text}

/-! ### Stages -/

theorem header?_append (hw : Gap w) (code : Text) :
    header? (w ++ code) = (header? code).map fun (h, t) => (h, w ++ t) := by
  rw [header?, header?, List.map_findSome?]
  congr 1
  funext h
  rw [h.keepsIndent.recast?_append hw, Option.map_map, Function.comp_apply, Option.map_map]
  rfl

theorem ended?_append (hw : Gap w) (t : Text) : ended? (w ++ t) = (ended? t).map (w ++ ·) := by
  rw [ended?, ended?, List.map_findSome?]
  congr 1
  funext e
  exact e.keepsIndent.recast?_append hw t

theorem expressions_append (hw : Gap w) (t : Text) : expressions (w ++ t) = w ++ expressions t :=
  recastWith_append (List.forall_mem_map.2 fun i _ => i.passesSpace) hw t

theorem memberships_append (hw : Gap w) (t : Text) : memberships (w ++ t) = w ++ memberships t :=
  recastWith_append (List.forall_mem_map.2 fun m _ => m.passesSpace) hw t

theorem inline_append (hw : Gap w) (t : Text) : inline (w ++ t) = w ++ inline t := by
  simp only [inline, expressions_append hw, trimStart_append_of_gap hw, memberships_append hw]
  split <;> rfl

theorem convertCode_append (hw : Gap w) (code : Text) :
    convertCode (w ++ code) = w ++ convertCode code := by
  rw [convertCode, convertCode, header?_append hw]
  cases header? code with
  | some found => exact inline_append hw found.2
  | none =>
    show (ended? (inline (w ++ code))).getD (inline (w ++ code)) = _
    rw [inline_append hw, ended?_append hw]
    cases ended? (inline code) <;> rfl

/-- White space in front of a line stays in front of what the line becomes. -/
theorem convert_append (hw : ∀ c ∈ w, isAsciiSpace c) (l : Text) :
    convert (w ++ l) = w ++ convert l := by
  rw [convert_eq, convert_eq, Comment.isBlank_split_append hw]
  split
  · rfl
  · rename_i hcode
    rw [Comment.split_append_of_ascii hw hcode, convertCode_append (Comment.gap_of_ascii hw),
      List.append_assoc]

/-! ### Scripts -/

/-- Spaces and tabs. -/
def IsIndent (w : Text) : Prop :=
  ∀ c ∈ w, c = ' ' ∨ c = '\t'

/-- A line without the spaces and tabs that it begins with. -/
def unindented (l : Text) : Text :=
  l.dropWhile fun c => c = ' ' || c = '\t'

instance (w : Text) : Decidable (IsIndent w) :=
  decidable_of_iff (w.all fun c => c = ' ' || c = '\t') (by simp [IsIndent])

theorem IsIndent.isAsciiSpace (hw : IsIndent w) : ∀ c ∈ w, isAsciiSpace c := by
  intro c hc
  rcases hw c hc with rfl | rfl <;> rfl

theorem exists_indent (l : Text) : ∃ w, IsIndent w ∧ l = w ++ unindented l := by
  refine ⟨l.takeWhile fun c => c = ' ' || c = '\t', fun c hc => ?_,
    List.takeWhile_append_dropWhile.symm⟩
  simpa using List.all_eq_true.1 List.all_takeWhile c hc

/-- A converted line is, up to white space, what the line becomes without its indentation. -/
theorem trim_convert (l : Text) : (convert l).trim = (convert (unindented l)).trim := by
  obtain ⟨w, hw, hl⟩ := exists_indent l
  have hconvert := convert_append hw.isAsciiSpace (unindented l)
  rw [← hl] at hconvert
  rw [hconvert, trim_append_of_gap (Comment.gap_of_ascii hw.isAsciiSpace)]

theorem map_trim_convert (h : ls.map unindented = ks.map unindented) :
    (ls.map convert).map trim = (ks.map convert).map trim := by
  have hlines (ls : List Text) :
      (ls.map convert).map trim = (ls.map unindented).map fun l => (convert l).trim := by
    rw [List.map_map, List.map_map]
    exact List.map_congr_left fun l _ => trim_convert l
  rw [hlines, hlines, h]

/-- The indentation of lines comes back in front of the converted lines, and lines that differ in
their indentation alone have the same layout. -/
theorem convert_append_indent :
    (∀ w l : Text, IsIndent w → convert (w ++ l) = w ++ convert l) ∧
    ∀ ls ks : List Text, ls.map unindented = ks.map unindented → ∀ width,
      Layout.reindentLines width (ls.map convert) = Layout.reindentLines width (ks.map convert) ∧
      Layout.depths (ls.map convert) = Layout.depths (ks.map convert) ∧
      Layout.finalDepth 0 (ls.map convert) = Layout.finalDepth 0 (ks.map convert) := by
  refine ⟨fun w l hw => convert_append hw.isAsciiSpace l, fun ls ks h width => ?_⟩
  obtain ⟨hplace, hfinal⟩ := Layout.walk_congr (map_trim_convert h) 0
  rw [Layout.reindentLines, Layout.reindentLines, Layout.depths, Layout.depths, hplace, hfinal]
  exact ⟨rfl, rfl, rfl⟩

/-- A condition with a comment, and a loop whose body is indented in two ways. -/
theorem convert_append_indent_loop :
    (IsIndent " \t" ∧ convert " \tif x in xs: // y" = " \tif xs.contains(&x) \x7b // y".toList) ∧
    (List.map unindented ["for i in range(3):", "\tf(i)"] =
        List.map unindented [" for i in range(3):", "    f(i)"] ∧
      Layout.reindentLines 2 (List.map convert ["for i in range(3):", "\tf(i)"]) =
        Layout.reindentLines 2 (List.map convert [" for i in range(3):", "    f(i)"])) := by
  have hw : IsIndent " \t" := by decide
  have hlines : List.map unindented ["for i in range(3):", "\tf(i)"] =
      List.map unindented [" for i in range(3):", "    f(i)"] := by
    decide
  have hcondition : convert "if x in xs: // y" = "if xs.contains(&x) \x7b // y".toList := by
    decide +kernel
  refine ⟨⟨hw, ?_⟩, hlines, (convert_append_indent.2 _ _ hlines 2).1⟩
  exact (convert_append_indent.1 _ "if x in xs: // y" hw).trans (congrArg _ hcondition)

end Oxidize.Line
