import Oxidize.Proofs.Comment.Marks
import Oxidize.Proofs.Text.Ink

/-!
# The two halves of a line

What `split` cuts off is a comment: it begins with the first comment mark in code that stands at the
start of the line or behind white space (`split_cases`). No comment begins in a literal
(`cut_literal_eq_none`), and none in a text without slashes, behind which the scan goes on in the
state that the text leaves (`cut_append_of_not_mem`).
-/

namespace Oxidize.Comment

open Text

variable {s : Quoting} {before : Option Char} {c q : Char} {t code comment w r g : Text}

theorem isSpace_of_isAsciiSpace (hc : isAsciiSpace c) : isSpace c := by
  simp only [isAsciiSpace, Bool.or_eq_true, decide_eq_true_eq] at hc
  rcases hc with (((rfl | rfl) | rfl) | rfl) | rfl <;> rfl

/-- The two halves of a line joined are the line. -/
theorem split_append (line : Text) : (split line).1 ++ (split line).2 = line := by
  rw [split]
  split
  · rw [List.append_nil]
  · rename_i code comment hcut
    rw [← List.append_assoc, (drop_length_trimEnd code).2, append_of_cut hcut]

theorem beginsAt_cons (c : Char) (r : Text) :
    beginsAt before (c :: r) = true ↔
      (c = '/' ∧ r.head? = some '/') ∧ before.all isAsciiSpace := by
  unfold beginsAt
  split
  · simp_all
  · rename_i hmark
    refine iff_of_false Bool.false_ne_true ?_
    rintro ⟨⟨rfl, hr⟩, -⟩
    obtain ⟨r, rfl⟩ := List.head?_eq_some_iff.1 hr
    exact hmark r rfl

theorem beginsAt_cons_of_ne (hc : c ≠ '/') (r : Text) : beginsAt before (c :: r) = false :=
  Bool.eq_false_iff.2 fun h => hc ((beginsAt_cons c r).1 h).1.1

/-! ### Where there is nothing to cut -/

/-- Without slashes there is no comment mark, also not where the text ends. -/
theorem cut_append_of_not_mem (hw : '/' ∉ w) (r : Text) :
    cut s before (w ++ r) =
      (cut (s.after isQuote w) (w.getLast?.or before) r).map
        fun (code, comment) => (w ++ code, comment) := by
  induction w generalizing s before with
  | nil => simp
  | cons c w ih =>
    rw [List.mem_cons, not_or] at hw
    rw [List.cons_append, cut_cons, beginsAt_cons_of_ne (Ne.symm hw.1), ih hw.2, Quoting.after_cons,
      getLast?_cons_or]
    simp [Function.comp_def]

theorem cut_append_eq_none (hw : '/' ∉ w)
    (hr : ∀ before, cut (s.after isQuote w) before r = none) : cut s before (w ++ r) = none := by
  rw [cut_append_of_not_mem hw, hr]
  rfl

theorem cut_eq_none_of_not_mem (ht : '/' ∉ t) : cut s before t = none := by
  rw [← List.append_nil t]
  exact cut_append_eq_none ht fun _ => rfl

/-- Behind a text without a comment mark the scan goes on in the state and with the character that
the text leaves. A slash next to the text could make a mark of its last character. -/
theorem cut_append_of_eq_none (hw : cut s before w = none) (hr : r.head? ≠ some '/') :
    cut s before (w ++ r) =
      (cut (s.after isQuote w) (w.getLast?.or before) r).map
        fun (code, comment) => (w ++ code, comment) := by
  induction w generalizing s before with
  | nil => simp
  | cons c w ih =>
    have hbegins : beginsAt before (c :: (w ++ r)) = beginsAt before (c :: w) := by
      cases w with
      | nil => cases r <;> simp_all [beginsAt]
      | cons d w => by_cases hc : c = '/' <;> by_cases hd : d = '/' <;> simp [beginsAt, hc, hd]
    rw [cut_cons] at hw
    split at hw
    · cases hw
    · rename_i hmark
      have hfurther := ih (Option.map_eq_none_iff.1 hw)
      rw [List.cons_append, cut_cons, hbegins, if_neg hmark, hfurther, Quoting.after_cons,
        getLast?_cons_or, Option.map_map]
      rfl

/-- White space behind a text belongs to its comment, if it has one. -/
theorem cut_append_gap (hg : Gap g) (t : Text) :
    cut s before (t ++ g) = (cut s before t).map (Prod.map id (· ++ g)) := by
  have hslash : '/' ∉ g := hg.not_mem rfl
  induction t generalizing s before with
  | nil => exact cut_eq_none_of_not_mem hslash
  | cons c t ih =>
    have hhead : (t ++ g).head? = some '/' ↔ t.head? = some '/' := by
      cases t with
      | nil => exact iff_of_false (fun h => hslash (List.mem_of_head? h)) nofun
      | cons d t => rfl
    have hbegins : beginsAt before (c :: (t ++ g)) = beginsAt before (c :: t) := by
      rw [Bool.eq_iff_iff, beginsAt_cons, beginsAt_cons, hhead]
    rw [List.cons_append, cut_cons, cut_cons, hbegins, ih]
    split
    · rfl
    · simp [Function.comp_def]

/-- In a literal no comment begins. -/
theorem cut_literal_eq_none (hq : q ∉ t) (ht : '\\' ∉ t) :
    cut (.literal q) before (t ++ [q]) = none := by
  induction t generalizing before with
  | nil => simp [cut_cons]
  | cons c t ih =>
    rw [List.mem_cons, not_or] at hq ht
    have hnext : (Quoting.literal q).next isQuote c = .literal q := by
      simp [Quoting.next, Ne.symm ht.1, Ne.symm hq.1]
    simp [cut_cons, hnext, ih hq.2 ht.2]

/-! ### What is cut off -/

/-- The cut is at a comment mark behind code without slashes. -/
theorem cut_append_mark (hw : '/' ∉ w) (hs : s.after isQuote w = .code)
    (hbefore : (w.getLast?.or before).all isAsciiSpace) (r : Text) :
    cut s before (w ++ '/' :: '/' :: r) = some (w, '/' :: '/' :: r) := by
  have hbegins : beginsAt (w.getLast?.or before) ('/' :: '/' :: r) := hbefore
  rw [cut_append_of_not_mem hw, hs, cut_cons, if_pos ⟨rfl, hbegins⟩]
  simp

/-- Where a comment mark stands, the cut is there or before. -/
theorem exists_cut_of_mark (hs : s.after isQuote w = .code)
    (hbefore : (w.getLast?.or before).all isAsciiSpace) (r : Text) :
    ∃ code comment, cut s before (w ++ '/' :: '/' :: r) = some (code, comment) ∧
      code.length ≤ w.length := by
  induction w generalizing s before with
  | nil => exact ⟨[], '/' :: '/' :: r, cut_append_mark List.not_mem_nil hs hbefore r, Nat.le_refl 0⟩
  | cons c w ih =>
    rw [getLast?_cons_or] at hbefore
    obtain ⟨code, comment, hcut, hle⟩ := ih hs hbefore
    rw [List.cons_append, cut_cons, hcut]
    split
    · exact ⟨[], _, rfl, Nat.zero_le _⟩
    · exact ⟨c :: code, comment, rfl, Nat.succ_le_succ hle⟩

theorem spec_of_cut (h : cut s before t = some (code, comment)) :
    s.after isQuote code = .code ∧ (code.getLast?.or before).all isAsciiSpace ∧
      ∃ r, comment = '/' :: '/' :: r := by
  induction t generalizing s before code with
  | nil => simp at h
  | cons c r ih =>
    rw [cut_cons] at h
    split at h
    · rename_i hmark
      obtain ⟨rfl, rfl⟩ : [] = code ∧ c :: r = comment := by simpa using h
      obtain ⟨rfl, hbegins⟩ := hmark
      unfold beginsAt at hbegins
      split at hbegins
      · rename_i r' heq
        exact ⟨rfl, hbegins, r', heq⟩
      · cases hbegins
    · simp only [Option.map_eq_some_iff, Prod.exists, Prod.mk.injEq] at h
      obtain ⟨code', comment', h, rfl, rfl⟩ := h
      obtain ⟨hs, hbefore, hcomment⟩ := ih h
      refine ⟨hs, ?_, hcomment⟩
      rwa [getLast?_cons_or]

/-- A line is code, or code that ends outside of literals, white space and a comment mark. Without
the white space there is no code either. -/
theorem split_cases (line : Text) :
    split line = (line, []) ∨
      ∃ g r, Gap g ∧ (split line).2 = g ++ '/' :: '/' :: r ∧
        Quoting.after isQuote .code ((split line).1 ++ g) = .code ∧
        g.getLast?.all isAsciiSpace ∧ (g = [] → (split line).1 = []) := by
  rw [split]
  split
  · exact .inl rfl
  · rename_i code comment hcut
    obtain ⟨hs, hbefore, r, rfl⟩ := spec_of_cut hcut
    rw [Option.or_none] at hbefore
    obtain ⟨hg, hcode⟩ := drop_length_trimEnd code
    generalize code.drop code.trimEnd.length = g at hg hcode
    refine .inr ⟨g, r, hg, rfl, by rwa [hcode], ?_, ?_⟩
    · cases hlast : g.getLast? with
      | none => rfl
      | some c =>
        have hbehind : code.getLast? = some c := by
          rw [← hcode, List.getLast?_append, hlast]
          rfl
        rwa [hbehind] at hbefore
    · -- A mark directly behind ink would be no comment mark.
      intro hnil
      rw [hnil, List.append_nil] at hcode
      cases hlast : code.getLast? with
      | none => simp [List.getLast?_eq_none_iff.1 hlast]
      | some c =>
        have hink : c ∈ ink code := List.mem_of_getLast? (by
          rw [← getLast?_trimEnd, hcode, hlast])
        rw [hlast] at hbefore
        have hspace := isSpace_of_isAsciiSpace hbefore
        exact absurd ((mem_ink.1 hink).2.symm.trans hspace) Bool.false_ne_true

/-! ### What is kept -/

theorem beginsAt_append {u v : Text} (h : beginsAt before u) : beginsAt before (u ++ v) := by
  unfold beginsAt at h
  split at h
  · exact h
  · cases h

/-- A text without a comment mark has none at its start. -/
theorem cut_eq_none_of_append {u v : Text} (h : cut s before (u ++ v) = none) :
    cut s before u = none := by
  induction u generalizing s before with
  | nil => rfl
  | cons c u ih =>
    rw [List.cons_append, cut_cons] at h
    split at h
    · cases h
    · rename_i hmark
      have hmark' : ¬ (s = .code ∧ beginsAt before (c :: u)) :=
        fun hbegins => hmark (hbegins.imp_right (beginsAt_append (u := c :: u)))
      rw [cut_cons, if_neg hmark', ih (Option.map_eq_none_iff.1 h)]
      rfl

/-- The cut is at the first comment mark: before it there is none. -/
theorem cut_eq_none_of_cut (h : cut s before t = some (code, comment)) : cut s before code = none := by
  induction t generalizing s before code with
  | nil => cases h
  | cons c r ih =>
    rw [cut_cons] at h
    split at h
    · obtain ⟨rfl, -⟩ : [] = code ∧ c :: r = comment := by simpa using h
      rfl
    · rename_i hmark
      simp only [Option.map_eq_some_iff, Prod.exists, Prod.mk.injEq] at h
      obtain ⟨code', comment', h, rfl, rfl⟩ := h
      have hmark' : ¬ (s = .code ∧ beginsAt before (c :: code')) := by
        rintro ⟨hs, hbegins⟩
        have hwhole := beginsAt_append (v := comment') hbegins
        rw [List.cons_append, append_of_cut h] at hwhole
        exact hmark ⟨hs, hwhole⟩
      rw [cut_cons, if_neg hmark', ih h]
      rfl

/-- The code of a line has no comment. -/
theorem split_fst (line : Text) : split (split line).1 = ((split line).1, []) := by
  have hcut : cut .code none (split line).1 = none := by
    rw [split]
    split
    · assumption
    · rename_i code comment hcut
      obtain ⟨g, -, hcode⟩ := trimEnd_spec code
      have hnone := cut_eq_none_of_cut hcut
      rw [hcode] at hnone
      exact cut_eq_none_of_append hnone
  rw [split, hcut]

/-! ### Other code before the same comment -/

variable {u line : Text}

/-- With other code before the comment of a line, the comment stays the comment. -/
theorem getLast?_split_trim (hcode : '\\' ∉ (split line).1) (hu : '/' ∉ u)
    (hafter : Quoting.after isQuote .code (split line).1 = .code →
      Quoting.after isQuote .code u = .code)
    (hnil : (split line).1 = [] → u = []) :
    (split (trim (u ++ (split line).2))).1.getLast? = (ink u).getLast? := by
  rcases split_cases line with hsplit | ⟨g, r, hg, hcomment, hend, hbefore, hempty⟩
  · -- The line has no comment, and the new code brings none.
    have hmem : '/' ∉ trim u := fun h => hu (mem_of_mem_trim h)
    rw [hsplit, List.append_nil, split, cut_eq_none_of_not_mem hmem]
    exact getLast?_trim u
  · -- The first comment mark is still the old one: the scan meets it in code and behind white space.
    have hends : Quoting.after isQuote .code u = .code := by
      refine hafter ?_
      rwa [Quoting.after_append, (settled_code.after hcode).after_gap hg] at hend
    have htrim : trim (u ++ (split line).2) =
        trimStart (u ++ g) ++ '/' :: '/' :: trimEnd r := by
      rw [hcomment, ← List.append_assoc, trim, trimStart_append_cons rfl, trimEnd_append_cons rfl,
        trimEnd_cons]
      simp +decide
    obtain ⟨g', hg', hw⟩ := trimStart_spec (u ++ g)
    have hmem : '/' ∉ trimStart (u ++ g) := by
      intro h
      rcases List.mem_append.1 (mem_of_mem_trimStart h) with h | h
      · exact hu h
      · exact hg.not_mem rfl h
    have hscan : Quoting.after isQuote .code (trimStart (u ++ g)) = .code := by
      have := congrArg (Quoting.after isQuote .code) hw
      rwa [Quoting.after_append, Quoting.after_append, hends, settled_code.after_gap hg,
        settled_code.after_gap hg', eq_comm] at this
    have hlast : (u ++ g).getLast?.all isAsciiSpace := by
      cases hg : g with
      | nil => simp [hnil (hempty hg)]
      | cons c g => simpa [hg, List.getLast?_cons] using hbefore
    have hlast' : ((trimStart (u ++ g)).getLast?.or none).all isAsciiSpace := by
      rw [Option.or_none]
      cases h : (trimStart (u ++ g)).getLast? with
      | none => rfl
      | some c =>
        have : (u ++ g).getLast? = some c := by
          rw [hw, List.getLast?_append, h]
          rfl
        rwa [this] at hlast
    rw [htrim, split, cut_append_mark hmem hscan hlast']
    show (trimEnd (trimStart (u ++ g))).getLast? = _
    rw [getLast?_trimEnd, ink_trimStart, ink_append, hg.ink_eq, List.append_nil]

/-- A comment is not what a line begins with, unless there is no code. -/
theorem head?_trim_append (hc : c ≠ '/') (u line : Text) :
    (trim (u ++ (split line).2)).head? = some c ↔ (ink u).head? = some c := by
  rw [head?_trim, ink_append]
  rcases split_cases line with hsplit | ⟨g, r, hg, hcomment, -⟩
  · simp [hsplit]
  · rw [hcomment, ink_append, hg.ink_eq]
    cases ink u <;> simp +decide [ink_cons, Ne.symm hc]

/-! ### White space in front of a line -/

/-- A cut sees no more of the character before a text than whether it separates words. -/
theorem cut_congr {before' : Option Char} (h : before.all isAsciiSpace = before'.all isAsciiSpace)
    (s : Quoting) (t : Text) : cut s before t = cut s before' t := by
  cases t with
  | nil => rfl
  | cons c r =>
    have hbegins : beginsAt before (c :: r) = beginsAt before' (c :: r) := by
      unfold beginsAt
      split
      · exact h
      · rfl
    rw [cut_cons, cut_cons, hbegins]

section Indented

variable (hw : ∀ c ∈ w, isAsciiSpace c)

include hw

theorem gap_of_ascii : Gap w :=
  fun c hc => isSpace_of_isAsciiSpace (hw c hc)

theorem cut_append (hbefore : before.all isAsciiSpace) (t : Text) :
    cut .code before (w ++ t) =
      (cut .code none t).map fun (code, comment) => (w ++ code, comment) := by
  have hgap := gap_of_ascii hw
  have hend : (w.getLast?.or before).all isAsciiSpace = (none : Option Char).all isAsciiSpace := by
    cases hlast : w.getLast? with
    | none => exact hbefore
    | some c => exact hw c (List.mem_of_getLast? hlast)
  rw [cut_append_of_not_mem (hgap.not_mem rfl), settled_code.after_gap hgap, cut_congr hend]

theorem isBlank_split_append (t : Text) : (split (w ++ t)).1.isBlank = (split t).1.isBlank := by
  have hgap := gap_of_ascii hw
  rw [split, split, cut_append hw rfl]
  cases cut .code none t with
  | none => exact isBlank_append_of_gap hgap t
  | some cut =>
    show (w ++ cut.1).trimEnd.isBlank = cut.1.trimEnd.isBlank
    rw [isBlank_trimEnd, isBlank_trimEnd, isBlank_append_of_gap hgap]

/-- White space in front of a line with code belongs to the code, and the comment stays the same. -/
theorem split_append_of_ascii (hcode : ¬ (split t).1.isBlank) :
    split (w ++ t) = (w ++ (split t).1, (split t).2) := by
  rw [split] at hcode
  rw [split, split, cut_append hw rfl]
  cases hcut : cut .code none t with
  | none => rfl
  | some cut =>
    have hne : cut.1.trimEnd ≠ [] := by
      rintro hnil
      rw [hcut] at hcode
      exact hcode (congrArg isBlank hnil)
    show ((w ++ cut.1).trimEnd, (w ++ cut.1).drop (w ++ cut.1).trimEnd.length ++ cut.2) = _
    rw [trimEnd_append_of_ne_nil hne, List.length_append, List.drop_length_add_append]

end Indented

end Oxidize.Comment
