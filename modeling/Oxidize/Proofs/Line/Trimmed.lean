import Oxidize.Proofs.Comment.Split
import Oxidize.Proofs.Line.Stages
import Oxidize.Proofs.Text.Unlines

/-!
# Comments of trimmed lines

Lines are converted as they stand, and placed by what they are when trimmed. Both times a comment is
cut off. White space at the end of a line belongs to the comment or to the code and moves no cut. In
front of a line it can hide a comment mark: trimming knows all white space, but a mark that is not
at the start of the line has to stand behind white space of ASCII. So the halves are the same up to
white space around them unless the line begins with a mark that is hidden in this way
(`Comment.Hidden`).

* `Comment.trimmedHalves`, the halves of a line up to white space around them;
* `Line.trimmedHalves_trim_iff`, when they are those of the trimmed line, and what then becomes of a
  line that is a comment as a whole.
-/

namespace Oxidize

open Text

namespace Comment

variable {s : Quoting} {before before' : Option Char} {g line t : Text}

/-- The code of a line and its comment, without the white space around them. -/
def trimmedHalves (line : Text) : Text × Text :=
  (split line).map trim trim

theorem trimmedHalves_eq (line : Text) :
    trimmedHalves line = ((cut .code none line).map (Prod.map trim trim)).getD (trim line, []) := by
  rw [trimmedHalves, split]
  cases hcut : cut .code none line with
  | none => rfl
  | some halves =>
    obtain ⟨code, comment⟩ := halves
    obtain ⟨hgap, hcode⟩ := drop_length_trimEnd code
    have htrim : trim (trimEnd code) = trim code := by
      rw [← trim_append_gap hgap, hcode]
    simp [htrim, trim_append_of_gap hgap]

/-- White space behind a line does not change its halves. -/
theorem trimmedHalves_append_gap (hg : Gap g) (t : Text) :
    trimmedHalves (t ++ g) = trimmedHalves t := by
  have hsame : trim ∘ (· ++ g) = trim := funext (trim_append_gap hg)
  rw [trimmedHalves_eq, trimmedHalves_eq, cut_append_gap hg, trim_append_gap hg, Option.map_map,
    Prod.map_comp_map, hsame, Function.comp_id]

theorem cut_append_of_gap (hg : Gap g) (t : Text) :
    cut .code none (g ++ t) = (cut .code g.getLast? t).map (Prod.map (g ++ ·) id) := by
  rw [cut_append_of_not_mem (hg.not_mem rfl), settled_code.after_gap hg, Option.or_none]
  rfl

/-- White space in front of a line does not change its halves, if the line is cut behind it as it is
cut at its start. -/
theorem trimmedHalves_append_of_gap (hg : Gap g)
    (hcut : cut .code g.getLast? t = cut .code none t) :
    trimmedHalves (g ++ t) = trimmedHalves t := by
  have hsame : trim ∘ (g ++ ·) = trim := funext (trim_append_of_gap hg)
  rw [trimmedHalves_eq, trimmedHalves_eq, cut_append_of_gap hg, hcut, trim_append_of_gap hg,
    Option.map_map, Prod.map_comp_map, hsame, Function.comp_id]

/-- What stands before a text matters only if the text begins with slashes. -/
theorem cut_eq_of_not_prefix (ht : ¬ ['/', '/'] <+: t) :
    cut s before t = cut s before' t := by
  cases t with
  | nil => rfl
  | cons c r =>
    have hslashes : ¬ (c = '/' ∧ r.head? = some '/') := by
      rintro ⟨rfl, hr⟩
      obtain ⟨r, rfl⟩ := List.head?_eq_some_iff.1 hr
      exact ht ⟨r, rfl⟩
    have hbegins (o : Option Char) : beginsAt o (c :: r) = false := by
      rw [Bool.eq_false_iff, Ne, beginsAt_cons]
      exact fun h => hslashes h.1
    rw [cut_cons, cut_cons, hbegins, hbegins]

/-- Two slashes begin the text of a line, behind white space that does not end in white space of
ASCII. -/
def Hidden (line : Text) : Prop :=
  ['/', '/'] <+: trimStart line ∧ ¬ (line.takeWhile isSpace).getLast?.all isAsciiSpace

instance (line : Text) : Decidable (Hidden line) :=
  inferInstanceAs (Decidable (_ ∧ _))

theorem gap_takeWhile (line : Text) : Gap (line.takeWhile isSpace) :=
  List.all_eq_true.1 List.all_takeWhile

theorem trimmedHalves_trim (h : ¬ Hidden line) :
    trimmedHalves (trim line) = trimmedHalves line := by
  obtain ⟨g, hg, hend⟩ := trimEnd_spec (trimStart line)
  have hcut : cut .code (line.takeWhile isSpace).getLast? (trimStart line) =
      cut .code none (trimStart line) := by
    by_cases hmark : ['/', '/'] <+: trimStart line
    · have hspace : (line.takeWhile isSpace).getLast?.all isAsciiSpace :=
        Decidable.not_not.1 fun hspace => h ⟨hmark, hspace⟩
      exact cut_congr hspace .code _
    · exact cut_eq_of_not_prefix hmark
  calc trimmedHalves (trim line)
      = trimmedHalves (trimEnd (trimStart line) ++ g) := (trimmedHalves_append_gap hg _).symm
    _ = trimmedHalves (trimStart line) := by rw [← hend]
    _ = trimmedHalves (line.takeWhile isSpace ++ trimStart line) :=
        (trimmedHalves_append_of_gap (gap_takeWhile line) hcut).symm
    _ = trimmedHalves line := by rw [trimStart, List.takeWhile_append_dropWhile]

/-- A line that is a comment has no code once it is trimmed. -/
theorem trimmedHalves_trim_fst (h : ['/', '/'] <+: trimStart line) :
    (trimmedHalves (trim line)).1 = [] := by
  obtain ⟨r, hr⟩ := h
  have htrim : trim line = '/' :: '/' :: trimEnd r := by
    rw [trim, ← hr, List.cons_append, List.cons_append, List.nil_append]
    exact trimEnd_append_cons rfl ['/'] r
  have hcut : cut .code none ('/' :: '/' :: trimEnd r) = some ([], '/' :: '/' :: trimEnd r) := rfl
  rw [trimmedHalves_eq, htrim, hcut]
  rfl

/-- A hidden mark is code. -/
theorem trimmedHalves_fst_ne_nil (h : Hidden line) : (trimmedHalves line).1 ≠ [] := by
  obtain ⟨⟨r, hr⟩, hspace⟩ := h
  have hgap := gap_takeWhile line
  have hline : line.takeWhile isSpace ++ '/' :: '/' :: r = line :=
    (congrArg (line.takeWhile isSpace ++ ·) hr).trans List.takeWhile_append_dropWhile
  generalize line.takeWhile isSpace = g at hgap hline hspace
  have hbegins : beginsAt g.getLast? ('/' :: '/' :: r) = false := Bool.eq_false_iff.2 hspace
  have hink (u : Text) : trim (g ++ '/' :: u) ≠ [] := by
    rw [Ne, trim_eq_nil_iff, isBlank_iff_gap]
    exact fun h => Bool.false_ne_true (h '/' (by simp))
  -- Wherever the line is cut, its code begins with the first of the two slashes.
  rw [← hline, trimmedHalves_eq, cut_append_of_gap hgap, cut_cons, hbegins, if_neg (by simp)]
  cases cut (Quoting.code.next isQuote '/') (some '/') ('/' :: r) with
  | none => exact hink _
  | some halves => exact hink _

end Comment

namespace Line

open Comment

variable {line : Text}

/-- A line that is a comment stays as it is, if its mark is not hidden. -/
theorem convert_of_comment (hmark : ['/', '/'] <+: trimStart line) (h : ¬ Hidden line) :
    convert line = line := by
  have hcode : (trimmedHalves line).1 = [] := by
    rw [← trimmedHalves_trim h, trimmedHalves_trim_fst hmark]
  have hblank : (split line).1.isBlank := trim_eq_nil_iff.1 hcode
  rw [convert_eq, if_pos hblank]

/-- A line and the trimmed line have the same code and the same comment, up to white space around
them, exactly if no comment mark is hidden. A line that is a comment then stays as it is. -/
theorem trimmedHalves_trim_iff (line : Text) :
    (trimmedHalves (trim line) = trimmedHalves line ↔ ¬ Hidden line) ∧
      (['/', '/'] <+: trimStart line → ¬ Hidden line → convert line = line) := by
  refine ⟨⟨fun heq h => ?_, trimmedHalves_trim⟩, convert_of_comment⟩
  exact trimmedHalves_fst_ne_nil h (heq ▸ trimmedHalves_trim_fst h.1)

/-- A space outside of ASCII that is followed by a tab hides nothing. -/
theorem trimmedHalves_trim_iff_tab :
    (['/', '/'] <+: trimStart "\u00a0\t// len(xs) " ∧ ¬ Hidden "\u00a0\t// len(xs) ") ∧
      trimmedHalves (trim "\u00a0\t// len(xs) ") = trimmedHalves "\u00a0\t// len(xs) " ∧
      convert "\u00a0\t// len(xs) " = "\u00a0\t// len(xs) ".toList := by
  have hmark : ['/', '/'] <+: trimStart "\u00a0\t// len(xs) " := by decide +kernel
  have hspace : ¬ Hidden "\u00a0\t// len(xs) " := by decide +kernel
  obtain ⟨hhalves, hconvert⟩ := trimmedHalves_trim_iff "\u00a0\t// len(xs) "
  exact ⟨⟨hmark, hspace⟩, hhalves.2 hspace, hconvert hmark hspace⟩

/-- A mark behind a space outside of ASCII: the line as it stands has no comment, and what follows
the mark is converted; trimmed, it is a comment as a whole. -/
theorem trimmedHalves_trim_ne :
    (trimmedHalves "\u00a0// len(xs)" = ("// len(xs)".toList, []) ∧
      trimmedHalves (trim "\u00a0// len(xs)") = ([], "// len(xs)".toList)) ∧
    ['/', '/'] <+: trimStart "\u00a0// len(xs)" ∧
      convert "\u00a0// len(xs)" = "\u00a0// xs.len()".toList ∧
      convert "\u00a0// len(xs)" ≠ "\u00a0// len(xs)".toList := by
  refine ⟨⟨?_, ?_⟩, ?_, ?_, ?_⟩ <;> decide +kernel

end Line

end Oxidize
