import Mathlib.Data.List.Infix
import Oxidize.Line
import Oxidize.Proofs.Comment.Split
import Oxidize.Proofs.Converter.LineByLine
import Oxidize.Proofs.Text.Literals
import Oxidize.Proofs.Text.Occurrences

/-!
# Comment marks and the standard rules

The standard rules write comments with `//`, and behind the rules every `//` in code that stands at
the start of a line or behind white space begins one (`Comment.HasMark`). In a line that holds no
quotes and nothing that the rules turn into a comment, they bring no such mark
(`RuleTable.sealed_standard`), so a line without marks is code as a whole behind them
(`RuleTable.split_apply_standard`). They take away only the marks behind `not ` and `lambda `, which
lose their space (`RuleTable.split_apply_standard_ne`); a floor division between blanks is therefore
cut.
-/

namespace Oxidize

open Text

namespace Comment

variable {before : Option Char} {p q t w code comment : Text}

/-- Two slashes stand at the start of the text or behind white space. -/
def HasMark (t : Text) : Prop :=
  ∃ w r, t = w ++ '/' :: '/' :: r ∧ w.getLast?.all isAsciiSpace

theorem hasMark_of_cut (h : cut .code none t = some (code, comment)) : HasMark t := by
  obtain ⟨-, hbefore, r, rfl⟩ := spec_of_cut h
  refine ⟨code, r, (append_of_cut h).symm, ?_⟩
  rwa [Option.or_none] at hbefore

theorem cut_ne_none (hw : ∀ c ∈ w, isQuote c = false)
    (hbefore : (w.getLast?.or before).all isAsciiSpace) (r : Text) :
    cut .code before (w ++ '/' :: '/' :: r) ≠ none := by
  obtain ⟨code, comment, hcut, -⟩ := exists_cut_of_mark (Quoting.after_code hw) hbefore r
  rw [hcut]
  exact Option.some_ne_none _

/-- A line without quotes is code as a whole exactly if it has no mark. -/
theorem split_eq_self_iff (ht : ∀ c ∈ t, isQuote c = false) : split t = (t, []) ↔ ¬ HasMark t := by
  rw [split]
  cases hcut : cut .code none t with
  | none =>
    refine iff_of_true rfl ?_
    rintro ⟨w, r, rfl, hw⟩
    refine cut_ne_none (fun c hc => ht c (List.mem_append_left _ hc)) ?_ r hcut
    rwa [Option.or_none]
  | some halves =>
    obtain ⟨code, comment⟩ := halves
    obtain ⟨-, -, r, rfl⟩ := spec_of_cut hcut
    exact iff_of_false (by simp) (not_not_intro (hasMark_of_cut hcut))

/-- The words of a mark: white space and two slashes. -/
def markWords : List Text :=
  " \t\n\x0c\r".toList.map fun s => [s, '/', '/']

/-- With a line end in front of a text, every mark stands behind white space. -/
theorem hasMark_iff : HasMark t ↔ ∃ f ∈ markWords, f <:+: '\n' :: t := by
  have hmem {s : Char} : s ∈ " \t\n\x0c\r".toList ↔ isAsciiSpace s := by
    simp [isAsciiSpace, or_assoc]
  constructor
  · rintro ⟨w, r, rfl, hw⟩
    rcases List.eq_nil_or_concat w with rfl | ⟨v, s, rfl⟩
    · exact ⟨['\n', '/', '/'], by decide, [], r, rfl⟩
    · rw [List.concat_eq_append] at hw ⊢
      have hs : isAsciiSpace s := by simpa using hw
      exact ⟨[s, '/', '/'], List.mem_map_of_mem (hmem.2 hs), '\n' :: v, r, by simp⟩
  · rintro ⟨f, hf, a, b, h⟩
    obtain ⟨s, hs, rfl⟩ := List.mem_map.1 hf
    cases a with
    | nil =>
      obtain ⟨-, rfl⟩ := List.cons.inj h
      exact ⟨[], b, rfl, rfl⟩
    | cons d a =>
      obtain ⟨-, rfl⟩ := List.cons.inj h
      exact ⟨a ++ [s], b, by simp, by simpa using hmem.1 hs⟩

instance (t : Text) : Decidable (HasMark t) :=
  decidable_of_iff _ hasMark_iff.symm

/-- A replacement that knows no slashes keeps the white space before a mark if what it writes ends in
the white space that it takes. -/
theorem HasMark.replaceAll (hp : '/' ∉ p) (hq : q ≠ [])
    (hlast : p.getLast?.any isAsciiSpace → q.getLast? = p.getLast?) (h : HasMark t) :
    HasMark (Text.replaceAll t p q) := by
  obtain ⟨w, r, rfl, hw⟩ := h
  refine ⟨Text.replaceAll w p q, Text.replaceAll r p q, ?_, ?_⟩
  · rw [replaceAll_append_cons hp, replaceAll_cons_of_not_mem hp]
  cases hs : w.getLast? with
  | none =>
    rw [List.getLast?_eq_none_iff.1 hs, replaceAll_nil]
    rfl
  | some s =>
    rw [hs] at hw
    have hkept (h : p.getLast? = some s) : q.getLast? = some s :=
      (hlast (by rw [h]; exact hw)).trans h
    rw [getLast?_replaceAll hq hkept hs]
    exact hw

end Comment

namespace RuleTable

open Comment

variable {rules : RuleTable} {F : List Text} {l t : Text}

theorem free_apply (h : ∀ r ∈ rules, Sealed F r.pattern r.replacement) (ht : Free F t) :
    Free F (apply rules t) := by
  induction rules generalizing t with
  | nil => exact ht
  | cons r rules ih =>
    rw [List.forall_mem_cons] at h
    exact ih h.2 (Free.replaceAll h.1 ht)

/-- A character that no rule looks for stays in front of a text. -/
theorem apply_cons_of_not_mem {c : Char} (h : ∀ r ∈ rules, c ∉ r.pattern) (t : Text) :
    apply rules (c :: t) = c :: apply rules t := by
  induction rules generalizing t with
  | nil => rfl
  | cons r rules ih =>
    rw [List.forall_mem_cons] at h
    have hr : r.apply (c :: t) = c :: r.apply t := replaceAll_cons_of_not_mem h.1 t
    rw [apply_cons, apply_cons, hr, ih h.2]

/-- Without these words, the standard rules write no comment. -/
def commentWords : List Text :=
  ["\"", "'", "#", "try:", "except", "excepTrue"]

/-- Behind these words, the standard rules take away a space. -/
def gluedWords : List Text :=
  ["lambda ", "not "]

theorem sealed_standard :
    ∀ r ∈ standard, Sealed (commentWords ++ markWords) r.pattern r.replacement := by
  decide +kernel

theorem sealed_quotes_standard :
    ∀ r ∈ standard, Sealed [['"'], ['\'']] r.pattern r.replacement := by
  decide +kernel

theorem sealed_gluedWords_standard :
    ∀ r ∈ standard, Sealed gluedWords r.pattern r.replacement := by
  decide +kernel

/-- A standard rule knows no slashes and keeps white space at the end of what it takes, or it takes
one of the words. -/
theorem keeps_or_glues_standard :
    ∀ r ∈ standard, (∃ f ∈ gluedWords, f <:+: r.pattern) ∨
      '/' ∉ r.pattern ∧ r.replacement ≠ [] ∧
        (r.pattern.getLast?.any isAsciiSpace → r.replacement.getLast? = r.pattern.getLast?) := by
  decide +kernel

/-- The standard rules bring no quotes into a text. -/
theorem no_quotes_apply_standard (hdouble : '"' ∉ t) (hsingle : '\'' ∉ t) :
    ∀ c ∈ apply standard t, isQuote c = false := by
  have hfree : Free [['"'], ['\'']] t := by
    simpa [Free, List.singleton_infix_iff] using ⟨hdouble, hsingle⟩
  have happly := free_apply sealed_quotes_standard hfree
  simp only [Free, List.forall_mem_cons, List.singleton_infix_iff] at happly
  intro c hc
  simp only [isQuote, Bool.or_eq_false_iff, decide_eq_false_iff_not]
  exact ⟨fun h => happly.1 (h ▸ hc), fun h => happly.2.1 (h ▸ hc)⟩

/-- A mark stays a mark under rules. -/
theorem hasMark_apply (hrules : ∀ r ∈ rules, r ∈ standard) (hfree : Free gluedWords t)
    (h : HasMark t) : HasMark (apply rules t) := by
  induction rules generalizing t with
  | nil => exact h
  | cons r rules ih =>
    rw [List.forall_mem_cons] at hrules
    refine ih hrules.2 (Free.replaceAll (sealed_gluedWords_standard r hrules.1) hfree) ?_
    rcases keeps_or_glues_standard r hrules.1 with ⟨f, hf, hpattern⟩ | ⟨hslash, hne, hlast⟩
    · show HasMark (replaceAll t r.pattern r.replacement)
      rwa [replaceAll_eq_self fun hr => hfree f hf (hpattern.trans hr)]
    · exact h.replaceAll hslash hne hlast

/-- A mark in a line without quotes does begin a comment behind the standard rules, unless a rule
takes away the space before it. -/
theorem split_apply_standard_ne (hdouble : '"' ∉ l) (hsingle : '\'' ∉ l)
    (hlambda : ¬ "lambda ".toList <:+: l) (hnot : ¬ "not ".toList <:+: l) (hmark : HasMark l) :
    split (apply standard l) ≠ (apply standard l, []) := by
  have hfree : Free gluedWords l := by
    simpa [Free, gluedWords] using ⟨hlambda, hnot⟩
  rw [Ne, split_eq_self_iff (no_quotes_apply_standard hdouble hsingle), not_not]
  exact hasMark_apply (fun r hr => hr) hfree hmark

section CommentFree

variable (hdouble : '"' ∉ l) (hsingle : '\'' ∉ l) (hsign : '#' ∉ l)
  (htry : ¬ "try:".toList <:+: l) (hexcept : ¬ "except".toList <:+: l)

include hdouble hsingle hsign htry hexcept

/-- Without the words, a mark behind the rules was there before. -/
theorem hasMark_of_apply_standard (hcompleted : ¬ "excepTrue".toList <:+: l)
    (h : HasMark (apply standard l)) : HasMark l := by
  have hline : ∀ r ∈ standard, '\n' ∉ r.pattern :=
    fun r hr => (withinLines_of_mem_standard r hr).pattern.1
  by_contra hmark
  have hwords : Free commentWords l := by
    have hletters : ¬ "try:".toList <:+: l ∧ ¬ "except".toList <:+: l ∧
      ¬ "excepTrue".toList <:+: l := ⟨htry, hexcept, hcompleted⟩
    simpa [Free, commentWords, List.singleton_infix_iff, hdouble, hsingle, hsign] using hletters
  have hmarks : Free markWords ('\n' :: l) := fun f hf h => hmark (hasMark_iff.2 ⟨f, hf, h⟩)
  obtain ⟨f, hf, hinfix⟩ := hasMark_iff.1 h
  rw [← apply_cons_of_not_mem hline] at hinfix
  refine free_apply sealed_standard ?_ f (List.mem_append_right _ hf) hinfix
  exact List.forall_mem_append.2 ⟨hwords.cons (by decide), hmarks⟩

/-- A line without quotes, number signs, `try:` and `except` is code as a whole behind the standard
rules, unless it has two slashes at its start or behind white space, or an `except` that the rule for
`True` completes. -/
theorem split_apply_standard (hcompleted : ¬ "excepTrue".toList <:+: l) (hmark : ¬ HasMark l) :
    split (apply standard l) = (apply standard l, []) :=
  (split_eq_self_iff (no_quotes_apply_standard hdouble hsingle)).2
    (mt (hasMark_of_apply_standard hdouble hsingle hsign htry hexcept hcompleted) hmark)

end CommentFree

/-- A true division is code. -/
theorem split_apply_standard_quotient :
    ('"' ∉ "half = total / 2".toList ∧ '\'' ∉ "half = total / 2".toList ∧
      '#' ∉ "half = total / 2".toList ∧ ¬ "try:".toList <:+: "half = total / 2".toList ∧
      ¬ "except".toList <:+: "half = total / 2".toList ∧
      ¬ "excepTrue".toList <:+: "half = total / 2".toList ∧ ¬ HasMark "half = total / 2") ∧
    split (apply standard "half = total / 2") = (apply standard "half = total / 2", []) := by
  have hdouble : '"' ∉ "half = total / 2".toList := by decide
  have hsingle : '\'' ∉ "half = total / 2".toList := by decide
  have hsign : '#' ∉ "half = total / 2".toList := by decide
  have htry : ¬ "try:".toList <:+: "half = total / 2".toList := by decide
  have hexcept : ¬ "except".toList <:+: "half = total / 2".toList := by decide
  have hcompleted : ¬ "excepTrue".toList <:+: "half = total / 2".toList := by decide
  have hmark : ¬ HasMark "half = total / 2" := by decide
  exact ⟨⟨hdouble, hsingle, hsign, htry, hexcept, hcompleted, hmark⟩,
    split_apply_standard hdouble hsingle hsign htry hexcept hcompleted hmark⟩

/-- The divisor of a floor division becomes a comment behind the semicolon, and so does what follows
an `except` that comes about only under the rules. -/
theorem split_apply_standard_floor :
    (('"' ∉ "total = a // b".toList ∧ '\'' ∉ "total = a // b".toList ∧
        '#' ∉ "total = a // b".toList ∧ ¬ "try:".toList <:+: "total = a // b".toList ∧
        ¬ "except".toList <:+: "total = a // b".toList) ∧
      (split (apply standard "total = a // b")).2 = " // b".toList ∧
      Line.convert (apply standard "total = a // b") = "let total = a; // b".toList) ∧
    ('"' ∉ "x = excepTrue".toList ∧ '\'' ∉ "x = excepTrue".toList ∧
        '#' ∉ "x = excepTrue".toList ∧ ¬ "try:".toList <:+: "x = excepTrue".toList ∧
        ¬ "except".toList <:+: "x = excepTrue".toList) ∧
      (split (apply standard "x = excepTrue")).2 = " // except equivalentrue".toList := by
  refine ⟨⟨⟨?_, ?_, ?_, ?_, ?_⟩, ?_, ?_⟩, ⟨?_, ?_, ?_, ?_, ?_⟩, ?_⟩ <;> decide +kernel

end RuleTable

end Oxidize
