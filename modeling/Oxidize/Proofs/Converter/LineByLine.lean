import Oxidize.Converter
import Oxidize.Proofs.Line.Characters
import Oxidize.Proofs.Text.Lines

/-!
# Conversion line by line

The literal rules run over the whole text before it is cut into lines. Rules that know no line ends
(`Rule.WithinLines`) do to a text what they do to each of its lines (`RuleTable.lines_apply`). The
standard rules are such rules, so the conversion by rules is the layout of lines that are converted
each on its own.
-/

namespace Oxidize

/-- A rule that neither looks for line ends nor writes any, and that always writes something. -/
structure Rule.WithinLines (r : Rule) : Prop where
  pattern : '\n' ∉ r.pattern ∧ '\r' ∉ r.pattern
  replacement : '\n' ∉ r.replacement ∧ '\r' ∉ r.replacement
  ne_nil : r.replacement ≠ []

namespace RuleTable

variable {rules : RuleTable}

theorem lines_apply (h : ∀ r ∈ rules, r.WithinLines) (t : Text) :
    (apply rules t).lines = t.lines.map (apply rules) := by
  induction rules generalizing t with
  | nil => exact (List.map_id t.lines).symm
  | cons r rules ih =>
    rw [List.forall_mem_cons] at h
    have hr : (r.apply t).lines = t.lines.map r.apply :=
      Text.lines_replaceAll h.1.pattern h.1.replacement h.1.ne_nil t
    rw [apply_cons, ih h.2, hr, List.map_map]
    rfl

theorem newline_not_mem_apply (h : ∀ r ∈ rules, r.WithinLines) {t : Text} (ht : '\n' ∉ t) :
    '\n' ∉ apply rules t := by
  induction rules generalizing t with
  | nil => exact ht
  | cons r rules ih =>
    rw [List.forall_mem_cons] at h
    exact ih h.2 (Text.newline_not_mem_replaceAll h.1.replacement.1 ht)

theorem withinLines_of_mem_standard : ∀ r ∈ standard, r.WithinLines := by
  have h : ∀ r ∈ standard, ('\n' ∉ r.pattern ∧ '\r' ∉ r.pattern) ∧
      ('\n' ∉ r.replacement ∧ '\r' ∉ r.replacement) ∧ r.replacement ≠ [] := by
    decide
  exact fun r hr => ⟨(h r hr).1, (h r hr).2.1, (h r hr).2.2⟩

end RuleTable

namespace Settings

variable {s : Settings}

theorem withinLines_of_mem_ruleTable (hs : ∀ r ∈ s.extraRules, r.WithinLines) :
    ∀ r ∈ s.ruleTable, r.WithinLines := by
  intro r hr
  rcases List.mem_append.1 hr with hr | hr
  · exact RuleTable.withinLines_of_mem_standard r hr
  · exact hs r hr

/-- What becomes of one line of a script. -/
def convertLine (s : Settings) (l : Text) : Text :=
  Line.convert (s.ruleTable.apply l)

theorem convertAll_apply (hs : ∀ r ∈ s.extraRules, r.WithinLines) (t : Text) :
    Line.convertAll (s.ruleTable.apply t) = t.lines.map s.convertLine := by
  rw [Line.convertAll, RuleTable.lines_apply (withinLines_of_mem_ruleTable hs), List.map_map]
  rfl

theorem newline_not_mem_convertLine (hs : ∀ r ∈ s.extraRules, r.WithinLines) {l : Text}
    (hl : '\n' ∉ l) : '\n' ∉ s.convertLine l :=
  Line.newline_not_mem_convert
    (RuleTable.newline_not_mem_apply (withinLines_of_mem_ruleTable hs) hl)

end Settings

namespace Converter

theorem layOut_calm (s : Settings) (ls : List Text) :
    (layOut s ls Watch.calm).result = .ok (Layout.finish s ls) := by
  simp only [layOut]
  split <;> rfl

/-- The conversion by rules is the layout of lines that are converted each on its own: rules and
forms neither join nor split, drop or reorder lines. -/
theorem tryConvert_line_by_line (s : Settings) (hs : ∀ r ∈ s.extraRules, r.WithinLines)
    (source : Text) :
    (s.ruleTable.apply source).lines = source.lines.map s.ruleTable.apply ∧
      (ofSettings s).tryConvert source = (do
        let r ← Stage.attempt do
          Stage.report (.linesConverted source.lines.length)
          layOut s (source.lines.map s.convertLine)
        pure (r.mapError Failure.ofPayload)) ∧
      ((ofSettings s).tryConvert source Watch.calm).result =
        .ok (.ok (Layout.finish s (source.lines.map s.convertLine))) ∧
      ∀ l ∈ source.lines.map s.convertLine, '\n' ∉ l := by
  have hstage : (ofSettings s).tryConvert source = (do
      let r ← Stage.attempt do
        Stage.report (.linesConverted source.lines.length)
        layOut s (source.lines.map s.convertLine)
      pure (r.mapError Failure.ofPayload)) := by
    simp only [tryConvert, byLines, ofSettings, Settings.convertAll_apply hs, List.length_map]
  refine ⟨RuleTable.lines_apply (Settings.withinLines_of_mem_ruleTable hs) source, hstage, ?_, ?_⟩
  · rw [hstage]
    show Except.ok (Except.mapError Failure.ofPayload
      (layOut s (source.lines.map s.convertLine) Watch.calm).result) = _
    rw [layOut_calm]
    rfl
  · intro l hl
    obtain ⟨k, hk, rfl⟩ := List.mem_map.1 hl
    exact Settings.newline_not_mem_convertLine hs (Text.newline_not_mem_of_mem_lines hk)

/-- The standard rules with one more, on a script with both kinds of line ends. -/
theorem tryConvert_line_by_line_two_lines :
    let s : Settings := { extraRules := [⟨"None", "()"⟩] }
    (∀ r ∈ s.extraRules, r.WithinLines) ∧
      ((ofSettings s).tryConvert "x = None\r\nprint(x)" Watch.calm).result =
        .ok (.ok (Layout.finish s
          ["let x = ();".toList, "println!(\"\x7b\x7d\", x);".toList])) := by
  have hs : ∀ r ∈ [Rule.mk "None" "()"], r.WithinLines := by
    rintro r hr
    obtain rfl := List.mem_singleton.1 hr
    exact ⟨by decide, by decide, by decide⟩
  refine ⟨hs, ?_⟩
  rw [(tryConvert_line_by_line { extraRules := [⟨"None", "()"⟩] } hs _).2.2.1]
  have hlines : (Text.lines "x = None\r\nprint(x)").map
      (Settings.convertLine { extraRules := [⟨"None", "()"⟩] }) =
        ["let x = ();".toList, "println!(\"\x7b\x7d\", x);".toList] := by
    decide +kernel
  rw [hlines]

end Converter

end Oxidize
