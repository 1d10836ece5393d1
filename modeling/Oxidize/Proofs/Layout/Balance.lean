import Mathlib
import Oxidize.Layout.EntryPoint
import Oxidize.Proofs.Layout.Surplus
import Oxidize.Proofs.Layout.Tallies
import Oxidize.Proofs.Layout.Walk

/-!
# The balance of the final text

The report on delimiters reads every line on its own, from outside of literals. White space adds
nothing to the count in any state of the scan, so neither trimming nor indenting a line changes what
it adds (`net_tally_append_of_gap`, `net_tally_trim`), also where a literal is left open at its end.
An entry point adds its header and a brace, which balance if its name brings no delimiter and no
quote. So the final text has the excess of the lines that it is made of (`excess_finish`).

* `Tally.net`, `Delimiter.excess`;
* `isBalanced_iff`, what the report says in these terms.
-/

namespace Oxidize.Layout

open Text

/-- How often a delimiter opens more than it closes, by a count. -/
def Tally.net (a : Tally) : Int :=
  a.opens - a.closes

@[simp] theorem Tally.net_zero : (0 : Tally).net = 0 := rfl

@[simp] theorem Tally.net_add (a b : Tally) : (a + b).net = a.net + b.net := by
  simp only [net, opens_add, closes_add]
  omega

namespace Delimiter

variable {d : Delimiter} {s : Quoting} {g l t u : Text} {ls : List Text}

/-- How often a delimiter opens more than it closes, by the count of the report: outside of
literals, each line read on its own. -/
def excess (d : Delimiter) (t : Text) : Int :=
  (d.tallyLines t.lines).net

theorem net_tallyChar (hd : d ∈ brackets) (c : Char) : (d.tallyChar c).net = d.weight c := by
  have hne : d.opening ≠ d.closing := by
    revert d
    decide
  rw [tallyChar, weight]
  by_cases hopening : c = d.opening
  · simp [hopening, hne, Tally.net]
  · by_cases hclosing : c = d.closing
    · simp [hclosing, Ne.symm hne, Tally.net]
    · simp [hopening, hclosing]

/-! ### One line -/

theorem net_tallyFrom_cons (hd : d ∈ brackets) (s : Quoting) (c : Char) (t : Text) :
    (d.tallyFrom s (c :: t)).net =
      (if s = .code ∧ !isDoubleQuote c then d.weight c else 0) +
        (d.tallyFrom (s.next isDoubleQuote c) t).net := by
  rw [tallyFrom, Tally.net_add]
  split
  · rw [net_tallyChar hd]
  · rfl

/-- White space adds nothing, wherever the scan stands. -/
theorem net_tallyFrom_of_gap (hd : d ∈ brackets) (hg : Gap g) (s : Quoting) :
    (d.tallyFrom s g).net = 0 := by
  induction g generalizing s with
  | nil => rfl
  | cons c g ih =>
    rw [Gap, List.forall_mem_cons] at hg
    rw [net_tallyFrom_cons hd, weight_of_isSpace hd hg.1, ih hg.2]
    simp

theorem next_code_of_ne {c : Char} (hc : c ≠ '"') :
    Quoting.code.next isDoubleQuote c = .code := by
  simp [Quoting.next, isDoubleQuote, hc]

theorem after_code_of_not_mem (ht : '"' ∉ t) : Quoting.after isDoubleQuote .code t = .code :=
  Quoting.after_code fun _ hc => decide_eq_false fun h => ht (h ▸ hc)

theorem net_tally_append_of_gap (hd : d ∈ brackets) (hg : Gap g) (l : Text) :
    (d.tally (g ++ l)).net = (d.tally l).net := by
  have hafter : Quoting.after isDoubleQuote .code g = .code :=
    after_code_of_not_mem (hg.not_mem rfl)
  rw [tally, tallyFrom_append, Tally.net_add, net_tallyFrom_of_gap hd hg, hafter, tally]
  omega

theorem net_tally_trim (hd : d ∈ brackets) (l : Text) :
    (d.tally (trim l)).net = (d.tally l).net := by
  obtain ⟨g, hg, hl⟩ := trimStart_spec l
  obtain ⟨g', hg', hstart⟩ := trimEnd_spec (trimStart l)
  have hfront : (d.tally l).net = (d.tally (trimStart l)).net := by
    rw [congrArg d.tally hl, net_tally_append_of_gap hd hg]
  -- White space at the end of a line adds nothing even if a literal is open there.
  have hback : (d.tally (trimStart l)).net = (d.tally (trim l)).net := by
    rw [congrArg d.tally hstart, tally, tallyFrom_append, Tally.net_add,
      net_tallyFrom_of_gap hd hg']
    simp [tally, trim]
  rw [hfront, hback]

theorem net_tally_dropReturn (hd : d ∈ brackets) (l : Text) :
    (d.tally (dropReturn l)).net = (d.tally l).net := by
  rw [← net_tally_trim hd, trim_dropReturn, net_tally_trim hd]

/-- Without quotes every delimiter counts. -/
theorem net_tally_eq_surplus (hd : d ∈ brackets) (hquote : '"' ∉ t) :
    (d.tally t).net = d.surplus t := by
  rw [tally]
  induction t with
  | nil => rfl
  | cons c t ih =>
    rw [List.mem_cons, not_or] at hquote
    have hc : isDoubleQuote c = false := by simp [isDoubleQuote, Ne.symm hquote.1]
    rw [net_tallyFrom_cons hd, next_code_of_ne (Ne.symm hquote.1), ih hquote.2, surplus_cons]
    simp [hc]

/-! ### A text -/

theorem net_tallyLines (d : Delimiter) (ls : List Text) :
    (d.tallyLines ls).net = (ls.map fun l => (d.tally l).net).sum := by
  induction ls with
  | nil => rfl
  | cons l ls ih => rw [tallyLines, Tally.net_add, ih, List.map_cons, List.sum_cons]

theorem excess_of_not_mem (hl : '\n' ∉ l) : d.excess l = (d.tally l).net := by
  by_cases hne : l = []
  · rw [hne]
    rfl
  · rw [excess, lines_of_not_mem hl hne, net_tallyLines]
    simp

theorem excess_lines (d : Delimiter) (t : Text) : (t.lines.map d.excess).sum = d.excess t := by
  have hline : t.lines.map d.excess = t.lines.map fun l => (d.tally l).net :=
    List.map_congr_left fun l hl => excess_of_not_mem (newline_not_mem_of_mem_lines hl)
  rw [hline, ← net_tallyLines, excess]

theorem excess_line_append (hd : d ∈ brackets) (hl : '\n' ∉ l) (u : Text) :
    d.excess (l ++ '\n' :: u) = d.excess l + d.excess u := by
  rw [excess, lines_append_newline hl, tallyLines, Tally.net_add, net_tally_dropReturn hd,
    excess_of_not_mem hl, excess]

/-- No literal goes on behind a line feed. -/
theorem excess_append_newline (hd : d ∈ brackets) (t u : Text) :
    d.excess (t ++ '\n' :: u) = d.excess t + d.excess u := by
  induction t using lines_induction with
  | nil => exact excess_line_append hd List.not_mem_nil u
  | last l hl _ => exact excess_line_append hd hl u
  | line l r hl ih =>
    rw [List.append_assoc, List.cons_append, excess_line_append hd hl, ih, excess_line_append hd hl]
    omega

theorem excess_unlines (hd : d ∈ brackets) (ls : List Text) :
    d.excess (unlines ls) = (ls.map d.excess).sum := by
  induction ls with
  | nil => rfl
  | cons l ls ih =>
    by_cases hnil : ls = []
    · rw [hnil]
      simp [unlines]
    · rw [unlines_cons hnil, excess_append_newline hd, ih, List.map_cons, List.sum_cons]

theorem excess_eq_surplus (hd : d ∈ brackets) (hquote : '"' ∉ t) : d.excess t = d.surplus t := by
  induction t using lines_induction with
  | nil => rfl
  | last l hl _ => rw [excess_of_not_mem hl, net_tally_eq_surplus hd hquote]
  | line l r hl ih =>
    simp only [List.mem_append, List.mem_cons, not_or] at hquote
    have hfeed : d.weight '\n' = 0 := weight_of_isSpace hd rfl
    rw [excess_line_append hd hl, excess_of_not_mem hl, net_tally_eq_surplus hd hquote.1,
      ih hquote.2.2, surplus_append, surplus_cons, hfeed]
    omega

theorem excess_append_of_gap (hd : d ∈ brackets) (hg : Gap g) (hfeed : '\n' ∉ g) (hl : '\n' ∉ l) :
    d.excess (g ++ l) = d.excess l := by
  have hline : '\n' ∉ g ++ l := fun h => (List.mem_append.1 h).elim hfeed hl
  rw [excess_of_not_mem hline, excess_of_not_mem hl, net_tally_append_of_gap hd hg]

theorem excess_trim (hd : d ∈ brackets) (hl : '\n' ∉ l) : d.excess (trim l) = d.excess l := by
  have hline : '\n' ∉ trim l := fun h => hl (mem_of_mem_trim h)
  rw [excess_of_not_mem hline, excess_of_not_mem hl, net_tally_trim hd]

end Delimiter

open Delimiter

variable {d : Delimiter} {s : Settings} {l : Text} {ls : List Text}

/-- The report holds a pair of brackets exactly if it does not open as often as it closes. -/
theorem isBalanced_iff (code : Text) : isBalanced code ↔ ∀ d ∈ brackets, d.excess code = 0 := by
  have hequal (d : Delimiter) : d.excess code = 0 ↔
      (d.tallyLines code.lines).opens = (d.tallyLines code.lines).closes := by
    rw [excess, Tally.net]
    omega
  simp [isBalanced, imbalances, List.filter_eq_nil_iff, hequal]

/-! ### Indenting and wrapping -/

theorem excess_render {p : Placed} (hd : d ∈ brackets) (hp : '\n' ∉ p.text) (width : Nat) :
    d.excess (p.render width) = d.excess p.text :=
  excess_append_of_gap hd (gap_spaces _) (newline_not_mem_spaces _) hp

theorem excess_deepen (hd : d ∈ brackets) (hl : '\n' ∉ l) :
    d.excess (deepen s l) = d.excess l := by
  rw [deepen]
  split
  · rename_i hblank
    rw [← excess_trim hd hl, trim_eq_nil_iff.2 hblank]
  · exact excess_append_of_gap hd (gap_spaces _) (newline_not_mem_spaces _) hl

theorem excess_reindentLines (hd : d ∈ brackets) (hls : ∀ l ∈ ls, '\n' ∉ l) (width : Nat) :
    d.excess (unlines (reindentLines width ls)) = d.excess (unlines ls) := by
  have hplaced : (reindentLines width ls).map d.excess =
      ((place 0 ls).map Placed.text).map d.excess := by
    rw [reindentLines, List.map_map, List.map_map]
    exact List.map_congr_left fun p hp => excess_render hd (newline_not_mem_text hls hp) width
  have htrimmed : (ls.map trim).map d.excess = ls.map d.excess := by
    rw [List.map_map]
    exact List.map_congr_left fun l hl => excess_trim hd (hls l hl)
  rw [excess_unlines hd, excess_unlines hd, hplaced, map_text_place, htrimmed]

section PlainName

variable (hquote : '"' ∉ s.entryPoint)
  (hbracket : ∀ d ∈ brackets, d.opening ∉ s.entryPoint ∧ d.closing ∉ s.entryPoint)

include hquote hbracket

/-- The brace that ends an entry point closes the one of the header. -/
theorem excess_entryHeader (hd : d ∈ brackets) :
    d.excess s.entryHeader + d.excess ['\x7d'] = 0 := by
  have hheader : s.entryHeader = "fn ".toList ++ (s.entryPoint ++ "() \x7b".toList) := by
    simp [Settings.entryHeader, Settings.entrySignature]
  have hplain : '"' ∉ s.entryHeader := by
    rw [hheader]
    simp [hquote]
  have hrest : d.surplus "fn ".toList + d.surplus "() \x7b".toList + d.excess ['\x7d'] = 0 := by
    revert d
    decide
  have hname : d.surplus s.entryPoint = 0 := by
    rw [surplus, List.count_eq_zero.2 (hbracket d hd).1, List.count_eq_zero.2 (hbracket d hd).2]
    rfl
  rw [excess_eq_surplus hd hplain, hheader, surplus_append, surplus_append, hname]
  omega

theorem excess_wrap (hd : d ∈ brackets) (code : Text) :
    d.excess (wrap s code) = d.excess code := by
  have hdeepen : (code.lines.map (deepen s)).map d.excess = code.lines.map d.excess := by
    rw [List.map_map]
    exact List.map_congr_left fun l hl => excess_deepen hd (newline_not_mem_of_mem_lines hl)
  have hends := excess_entryHeader hquote hbracket hd
  rw [wrap, excess_unlines hd, List.map_append, List.map_cons, hdeepen, List.sum_append,
    List.sum_cons, excess_lines, List.map_singleton, List.sum_singleton]
  omega

/-- Neither indenting nor wrapping changes what the report on delimiters counts. -/
theorem excess_finish (hls : ∀ l ∈ ls, '\n' ∉ l) :
    (∀ d ∈ brackets, d.excess (finish s ls) = d.excess (unlines ls)) ∧
      isBalanced (finish s ls) = isBalanced (unlines ls) := by
  have hexcess : ∀ d ∈ brackets, d.excess (finish s ls) = d.excess (unlines ls) := by
    intro d hd
    rw [finish, ensureEntryPoint]
    split
    · exact excess_reindentLines hd hls s.width
    · rw [excess_wrap hquote hbracket hd, excess_reindentLines hd hls]
  refine ⟨hexcess, ?_⟩
  rw [Bool.eq_iff_iff, isBalanced_iff, isBalanced_iff]
  exact forall₂_congr fun d hd => by rw [hexcess d hd]

end PlainName

/-- A literal that is left open behind a backslash, white space behind it, and a last line that is
dropped. -/
theorem excess_finish_open_literal :
    let s : Settings := {}
    let ls : List Text := ["f(\"(\\ ", "\t[x\"]\\", " "]
    ('"' ∉ s.entryPoint ∧
        (∀ d ∈ brackets, d.opening ∉ s.entryPoint ∧ d.closing ∉ s.entryPoint) ∧
        ∀ l ∈ ls, '\n' ∉ l) ∧
      (finish s ls).lines.length = 4 ∧
      brackets.map (fun d => d.excess (finish s ls)) = [0, 1, 1] ∧
      isBalanced (finish s ls) = false := by
  intro s ls
  have hquote : '"' ∉ s.entryPoint := by decide
  have hbracket : ∀ d ∈ brackets, d.opening ∉ s.entryPoint ∧ d.closing ∉ s.entryPoint := by decide
  have hls : ∀ l ∈ ls, '\n' ∉ l := by decide
  obtain ⟨hexcess, hbalanced⟩ := excess_finish hquote hbracket hls
  refine ⟨⟨hquote, hbracket, hls⟩, by decide +kernel, ?_, ?_⟩
  · rw [List.map_congr_left hexcess]
    decide +kernel
  · rw [hbalanced]
    decide +kernel

end Oxidize.Layout
