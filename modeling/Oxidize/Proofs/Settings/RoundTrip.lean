import Oxidize.Proofs.Toml.Conformance
import Oxidize.Settings.Stored

/-!
# Stored settings are loaded again

The settings are taken from the table that they are handed over as (`ofTable?_sheet`). A library
that follows TOML 1.0 reads this table again from what it has written: the text stands for the table
that was written and for the one that is read, and no text stands for two (`load_saved`). Whether it
writes a text is a question of the integers of TOML, and whether `load` accepts what is read is one
of the maximum, thus both are questions of the width alone.
-/

namespace Oxidize.Settings

open Toml Text

variable {l : Library} {s : Settings} {t : Text}

/-! ### The table of settings -/

theorem mapM_rule? (rules : RuleTable) :
    (rules.map fun r => Value.table r.record.table).mapM rule? = some rules := by
  induction rules with
  | nil => rfl
  | cons r rules ih =>
    have hrule : rule? (.table r.record.table) = some r := rfl
    rw [List.map_cons, List.mapM_cons, hrule, ih]
    rfl

/-- Every setting is found under its key, and the rules are found in their order. -/
theorem ofTable?_sheet (s : Settings) : ofTable? s.sheet.table = some s := by
  have hwidth : width? (.integer s.indentWidth) = some s.indentWidth := by
    simp [width?]
  have hrules : rules? (.array (s.sheet.items.map fun r => .table r.table)) =
      some s.extraRules := by
    simpa [sheet, rules?, Function.comp_def] using mapM_rule? s.extraRules
  show (do
    let indentWidth ← width? (.integer s.indentWidth)
    let entryPoint ← some s.entryPoint
    let wrap ← some s.wrap
    let extraRules ← rules? (.array (s.sheet.items.map fun r => .table r.table))
    some ({ indentWidth, entryPoint, wrap, extraRules } : Settings)) = some s
  rw [hwidth, hrules]
  rfl

theorem fits_sheet_iff (s : Settings) : s.sheet.fits ↔ s.indentWidth ≤ maxInteger.toNat := by
  simp [sheet, Sheet.fits, record, Rule.record, Record.fits, Scalar.fits]

/-! ### Saving -/

/-- No document holds a number that is no integer of 64 bits. -/
theorem le_maxInteger_of_save (hl : l.Conforms) (ht : s.save l = some t) :
    s.indentWidth ≤ maxInteger.toNat := by
  have hwidth := (hl.document_write _ _ ht).integer_le (k := "indent_width") List.mem_cons_self
  omega

theorem save_eq_none_iff (hl : l.Conforms) (s : Settings) :
    s.save l = none ↔ 9223372036854775807 < s.indentWidth := by
  have hmax : maxInteger.toNat = 9223372036854775807 := by decide
  rw [← hmax, ← Nat.not_le, ← s.fits_sheet_iff]
  constructor
  · intro hnone hfits
    have hsome := hl.write_isSome _ hfits
    rw [show l.write s.sheet = none from hnone] at hsome
    cases hsome
  · intro hfits
    rw [Option.eq_none_iff_forall_ne_some]
    exact fun t ht => hfits (s.fits_sheet_iff.2 (le_maxInteger_of_save hl ht))

/-! ### Loading what was saved -/

/-- What is read from a saved text are the settings that were saved. -/
theorem load_saved (hl : l.Conforms) (ht : s.save l = some t) :
    (l.read t).bind ofTable? = some s := by
  have hwritten := hl.document_write _ _ ht
  obtain ⟨u, hread, hu⟩ := hl.document_read _ _ hwritten
  rw [hread, hu.unique hwritten, Option.bind_some, ofTable?_sheet]

theorem widthFault?_of_lt (hs : 16 < s.indentWidth) :
    s.widthFault? =
      some ("indent_width " ++ ofNat s.indentWidth ++ " exceeds the maximum of 16") := by
  have hmaximum : (" exceeds the maximum of " : Text) ++ ofNat maxWidth =
      " exceeds the maximum of 16" := by
    decide
  rw [← hmaximum, ← List.append_assoc]
  exact if_neg (Nat.not_le.2 hs)

theorem load_eq_ok (ht : (l.read t).bind ofTable? = some s) (hs : s.widthFault? = none) :
    load t l = .ok s := by
  unfold load
  simp only [ht, hs]

theorem load_eq_refused {message : Text} (ht : (l.read t).bind ofTable? = some s)
    (hs : s.widthFault? = some message) : load t l = .error (.refused message) := by
  unfold load
  simp only [ht, hs]

/-- With a library that follows TOML 1.0, settings can be saved exactly if their width is an integer
of 64 bits, thus at most `2 ^ 63 - 1`. What is read from the saved text are the settings themselves,
whatever their texts and rules are. They load as they were, unless their width is over the maximum:
then they are refused for it. -/
theorem load_save (l : Library) (hl : l.Conforms) (s : Settings) :
    (s.save l = none ↔ 9223372036854775807 < s.indentWidth) ∧
      ∀ t, s.save l = some t →
        (l.read t).bind ofTable? = some s ∧
          (s.indentWidth ≤ 16 → load t l = .ok s) ∧
          (16 < s.indentWidth →
            load t l = .error (.refused ("indent_width " ++ ofNat s.indentWidth ++
              " exceeds the maximum of 16"))) := by
  refine ⟨save_eq_none_iff hl s, fun t ht => ?_⟩
  have hread : (l.read t).bind ofTable? = some s := load_saved hl ht
  exact ⟨hread, fun hwidth => load_eq_ok hread (if_pos hwidth),
    fun hwidth => load_eq_refused hread (widthFault?_of_lt hwidth)⟩

/-- Texts that need every kind of quotes, rules of which one has an empty pattern, and widths on
both sides of both bounds, with the project's writer and reader. -/
theorem load_save_quotes :
    let s : Settings :=
      { indentWidth := 16
        entryPoint := "it's \"\"\"quoted\"\"\"\n"
        wrap := false
        extraRules := [⟨"", "C:\\dir\t"⟩, ⟨"'''\r\n", "\x00\x7f\"\\"⟩] }
    (∃ t, s.save = some t ∧ load t = .ok s) ∧
      (∃ t, { s with indentWidth := 17 }.save = some t ∧
        load t = .error (.refused "indent_width 17 exceeds the maximum of 16")) ∧
      { s with indentWidth := 9223372036854775808 }.save = none := by
  intro s
  have holds := load_save .standard Library.conforms_standard
  have saved (n : Nat) (hn : n ≤ 9223372036854775807) :
      ∃ t, { s with indentWidth := n }.save = some t := by
    rw [← Option.ne_none_iff_exists', ne_eq, (holds _).1]
    exact Nat.not_lt.2 hn
  obtain ⟨t, ht⟩ := saved 16 (by decide)
  obtain ⟨u, hu⟩ := saved 17 (by decide)
  have hmessage : ("indent_width " : Text) ++ ofNat 17 ++ " exceeds the maximum of 16" =
      "indent_width 17 exceeds the maximum of 16" := by
    decide
  refine ⟨⟨t, ht, ((holds s).2 t ht).2.1 (by decide)⟩, ⟨u, hu, ?_⟩, ?_⟩
  · have hload := ((holds _).2 u hu).2.2 (by decide)
    exact hload.trans (congrArg (fun m => Except.error (StoredFault.refused m)) hmessage)
  · rw [(holds _).1]
    decide

end Oxidize.Settings
