import Mathlib.Data.List.Basic
import Oxidize.Proofs.Form.Statements
import Oxidize.Proofs.Line.Back
import Oxidize.Proofs.Line.Quotes
import Oxidize.Proofs.Text.Unlines

/-!
# Lines that end open

A statement that goes on in the lines below ends in an opening bracket or a comma, a finished one in
a semicolon. The conversion of such a line would best put nothing behind it. It does put a semicolon
there in two cases: a comma or a semicolon ends the value of a binding, or the line is a return or a
placement that is no header (`convert_openEnd_iff`). Apart from that the line ends as it did, unless
a membership test takes an opening square bracket for the end of a path.

The semicolons of a line tell whether one was put there: no inline form changes their number
(`count_semicolon_inline`).
-/

namespace Oxidize

open Pattern Text

/-- The characters at the end of a line behind which no semicolon belongs. -/
def openEnds : Text :=
  "([\x7b,;"

variable {x y t : Text} {c d : Char}

theorem ne_of_mem_openEnds (hc : c ∈ openEnds) (hd : d ∉ openEnds) : d ≠ c :=
  fun h => hd (h ▸ hc)

/-! ### Single replacements -/

theorem count_semicolon_of_gap {g : Text} (hg : Gap g) : g.count ';' = 0 :=
  List.count_eq_zero.2 (hg.not_mem rfl)

theorem Inline.Turns.count_semicolon {i : Inline} (h : i.Turns x y) :
    y.count ';' = x.count ';' := by
  have gaps : ∀ {g}, Gap g → g.count ';' = 0 := count_semicolon_of_gap
  cases h <;> simp [List.count_cons, *]

theorem Membership.Turns.count_semicolon {m : Membership} (h : m.Turns x y) :
    y.count ';' = x.count ';' := by
  have gaps : ∀ {g}, Run isSpace g → g.count ';' = 0 := fun h => count_semicolon_of_gap h.gap
  cases h <;> simp [*] <;> omega

theorem Inline.Turns.getLast?_ink_ne_openEnd {i : Inline} (h : i.Turns x y) (hc : c ∈ openEnds) :
    (ink x).getLast? ≠ some c := by
  have hparenthesis : ')' ≠ c := ne_of_mem_openEnds hc (by decide)
  have hquote : '"' ≠ c := ne_of_mem_openEnds hc (by decide)
  cases h <;> simp +decide [ink_cons, List.getLast?_cons] <;> grind

/-- The path to a collection can end in an opening square bracket. -/
theorem Membership.Turns.getLast?_ink_ne_openEnd {m : Membership} (h : m.Turns x y)
    (hc : c ∈ openEnds) (hsquare : c ≠ '[') : (ink x).getLast? ≠ some c := by
  have hpath : isPath c = false := by
    have : ∀ c ∈ openEnds, c == '[' || !isPath c := List.all_eq_true.1 (by decide)
    simpa [hsquare] using this c hc
  have hletter : 'n' ≠ c := ne_of_mem_openEnds hc (by decide)
  cases h with
  | absent _ _ hs hcollection | present _ _ hs hcollection =>
    have hend := hcollection.getLast?_ink_ne hpath
    simpa +decide [ink_cons, List.getLast?_cons, Gap.ink_eq hs.gap] using getD_ne hend hletter

/-- What a header makes of a line with an open end. Only assignments are such lines, since all other
headers end in a colon: the value of one that goes on below is kept as it is, behind another one
there is a semicolon. -/
theorem Header.Turns.openEnd {h : Header} (hxy : h.Turns x y) (hc : c ∈ openEnds)
    (hlast : (ink x).getLast? = some c) :
    (h = .openBinding ∧ (ink y).getLast? = some c ∧ y.count ';' = x.count ';') ∨
      (h = .binding ∧ y.count ';' = x.count ';' + 1) := by
  have gaps : ∀ {g}, Gap g → ink g = [] := Gap.ink_eq
  have counts : ∀ {g}, Gap g → g.count ';' = 0 := count_semicolon_of_gap
  cases hxy with
  | openBinding _ _ _ _ _ hbracket hg =>
    refine .inl ⟨rfl, ?_, ?_⟩
    · rcases hbracket with rfl | rfl | rfl <;>
        simpa +decide [ink_cons, List.getLast?_cons, gaps hg] using hlast
    · rcases hbracket with rfl | rfl | rfl <;> simp [*]
  | binding =>
    refine .inr ⟨rfl, ?_⟩
    simp [List.count_cons, *]
    omega
  | _ =>
    simp +decide [ink_cons, List.getLast?_cons, *] at hlast
    exact absurd hlast (ne_of_mem_openEnds hc (by decide))

namespace Line

variable {code line : Text}

/-! ### The inline stage -/

theorem count_semicolon_inline (t : Text) : (inline t).count ';' = t.count ';' := by
  refine inline_preserves (fun u => u.count ';' = t.count ';') ?_ ?_ rfl
  · intro i p x y q hxy h
    simpa [hxy.count_semicolon] using h
  · intro m p x y q hxy h
    simpa [hxy.count_semicolon] using h

theorem getLast?_ink_expressions (hc : c ∈ openEnds) (ht : (ink t).getLast? = some c) :
    (ink (expressions t)).getLast? = some c := by
  refine expressions_preserves (fun u => (ink u).getLast? = some c) ?_ ht
  intro i p x y q hxy h
  simp only [ink_append] at h ⊢
  exact getLast?_exchange hxy.ink_ne_nil (hxy.getLast?_ink_ne_openEnd hc) h

theorem getLast?_ink_memberships (hc : c ∈ openEnds) (hsquare : c ≠ '[')
    (ht : (ink t).getLast? = some c) : (ink (memberships t)).getLast? = some c := by
  refine memberships_preserves (fun u => (ink u).getLast? = some c) ?_ ht
  intro m p x y q hxy h
  simp only [ink_append] at h ⊢
  exact getLast?_exchange hxy.core_ne_nil.1 (hxy.getLast?_ink_ne_openEnd hc hsquare) h

/-- Behind the inline stage a line ends as before, but for a square bracket in a condition or a
binding: there it is the membership tests that decide. -/
theorem getLast?_ink_inline_iff (hc : c ∈ openEnds) (ht : (ink t).getLast? = some c) :
    (ink (inline t)).getLast? = some c ↔
      (c = '[' → isCondition (expressions t).trimStart →
        (ink (memberships (expressions t))).getLast? = some '[') := by
  have hexpressions := getLast?_ink_expressions hc ht
  rw [inline]
  by_cases hcondition : isCondition (expressions t).trimStart
  · rw [if_pos (by simp [hcondition, isLoop_of_isCondition hcondition])]
    by_cases hsquare : c = '['
    · simp [hsquare, hcondition]
    · simp [hsquare, getLast?_ink_memberships hc hsquare hexpressions]
  · rw [if_neg (by simp [hcondition])]
    simp [hexpressions, hcondition]

/-! ### Whole lines -/

/-- Whether a line is a statement between white space. -/
def IsStatement (t : Text) : Prop :=
  ∃ e ind x g, Gap ind ∧ Ending.IsStatement e x ∧ Gap g ∧ t = ind ++ x ++ g

theorem isSome_ended?_iff : (ended? t).isSome ↔ IsStatement t := by
  rw [ended?, List.findSome?_isSome_iff]
  constructor
  · rintro ⟨e, -, he⟩
    exact ⟨e, Ending.isSome_recast?_iff.1 he⟩
  · rintro ⟨e, he⟩
    exact ⟨e, e.mem_all, Ending.isSome_recast?_iff.2 he⟩

/-- A bracket at the end of a line leaves no room for a closed binding. -/
theorem header?_ne_binding (hc : oneOf ['[', '(', '{'] c) (hlast : (ink code).getLast? = some c) :
    (header? code).map Prod.fst ≠ some .binding := by
  intro hbinding
  obtain ⟨⟨h, t⟩, hh, rfl⟩ := Option.map_eq_some_iff.1 hbinding
  obtain ⟨tried, h', later, hall, hrecast, hfailed⟩ := List.findSome?_eq_some_iff.1 hh
  obtain ⟨u, hu, ⟨rfl, rfl⟩⟩ := Option.map_eq_some_iff.1 hrecast
  -- The header for values that go on is tried before.
  have htried : Header.openBinding ∈ tried := by
    have hbefore : ∀ n < Header.all.length,
        Header.all[n]? = some .binding → .openBinding ∈ Header.all.take n := by
      decide
    have hlength : tried.length < Header.all.length := by simp [hall]
    simpa [hall] using hbefore tried.length hlength (by simp [hall])
  have hopen := Header.isSome_openBinding (Option.isSome_of_eq_some hu) hlast hc
  rw [Option.map_eq_none_iff.1 (hfailed _ htried)] at hopen
  cases hopen

/-- The code of a line as its header leaves it. -/
def recast (code : Text) : Text :=
  (header? code).elim code Prod.snd

/-- The converted code ends as the code did, and it has no more semicolons. -/
def StaysOpen (c : Char) (code : Text) : Prop :=
  (convertCode code).trimEnd.getLast? = some c ∧ (convertCode code).count ';' = code.count ';'

/-- An open end is kept unless it is the comma or the semicolon of a binding or ends a whole
statement, or a membership test takes it for the end of a path. -/
theorem staysOpen_iff (hc : c ∈ openEnds) (hlast : (ink code).getLast? = some c) :
    StaysOpen c code ↔
      (c = ',' ∨ c = ';' → (header? code).map Prod.fst ≠ some .binding) ∧
        (header? code = none → ¬IsStatement (inline code)) ∧
        (c = '[' → isCondition (expressions (recast code)).trimStart →
          (memberships (expressions (recast code))).trimEnd.getLast? = some '[') := by
  simp only [StaysOpen, getLast?_trimEnd, ← isSome_ended?_iff]
  rcases hh : header? code with _ | ⟨h, t⟩
  · have hrecast : recast code = code := by rw [recast, hh]; rfl
    rw [hrecast, ← getLast?_ink_inline_iff hc hlast, convertCode, hh]
    cases hended : ended? (inline code) with
    | none => simp [count_semicolon_inline]
    | some u =>
      obtain ⟨kept, g, hg, hkept, rfl⟩ := exists_of_ended? hended
      have hcount : kept.count ';' = code.count ';' := by
        rw [← count_semicolon_inline code, hkept, List.count_append, count_semicolon_of_gap hg,
          Nat.add_zero]
      have hmore : (kept ++ ";").count ';' ≠ code.count ';' := by
        simp [hcount]
      exact iff_of_false (fun h => hmore h.2) fun h => h.2.1 rfl rfl
  · have hrecast : recast code = t := by rw [recast, hh]; rfl
    rw [hrecast, convertCode, hh]
    rcases (turns_of_header? hh).openEnd hc hlast with ⟨rfl, ht, hcount⟩ | ⟨rfl, hcount⟩
    · rw [← getLast?_ink_inline_iff hc ht]
      simp [count_semicolon_inline, hcount]
    · have hends : c = ',' ∨ c = ';' := by
        have hkinds : ∀ c ∈ openEnds, oneOf ['[', '(', '{'] c || (c == ',' || c == ';') :=
          List.all_eq_true.1 (by decide)
        have hkind := hkinds c hc
        simp only [Bool.or_eq_true, beq_iff_eq] at hkind
        refine hkind.resolve_left fun hbracket => ?_
        exact header?_ne_binding hbracket hlast (by rw [hh]; rfl)
      simp [count_semicolon_inline, hcount, hends]

/-- The code of a converted line is the converted code, if that brings no comment mark. -/
theorem trimEnd_split_convert (hslash : '\\' ∉ (Comment.split line).1)
    (hblank : ¬(Comment.split line).1.isBlank)
    (hmark : (Comment.split (convertCode (Comment.split line).1)).2 = []) :
    (Comment.split (convert line)).1.trimEnd = (convertCode (Comment.split line).1).trimEnd := by
  rw [convert_eq, if_neg hblank]
  set code := (Comment.split line).1 with hcode
  have hcut : Comment.cut .code none (convertCode code) = none := by
    rw [Comment.split] at hmark
    split at hmark
    · assumption
    · rename_i k comment hcut
      obtain ⟨-, -, r, rfl⟩ := Comment.spec_of_cut hcut
      simp at hmark
  rcases Comment.split_cases line with hsplit | ⟨g, r, hg, hcomment, hend, hbefore, hempty⟩
  · rw [hsplit, List.append_nil, Comment.split, hcut]
  · -- The mark of the old comment is the first one, behind code that ends outside of literals.
    have hne : g ≠ [] := by
      intro hnil
      rw [hcode, hempty hnil] at hblank
      exact hblank rfl
    have hafter : Quoting.after Comment.isQuote .code (convertCode code) = .code := by
      refine after_convertCode hslash ?_
      rwa [Quoting.after_append, (Comment.settled_code.after hslash).after_gap hg] at hend
    have hslashes : (g ++ '/' :: '/' :: r).head? ≠ some '/' := by
      obtain ⟨d, g, rfl⟩ := List.exists_cons_of_ne_nil hne
      rintro ⟨rfl⟩
      exact hg.not_mem rfl List.mem_cons_self
    have hmarked : Comment.cut .code ((convertCode code).getLast?.or none)
        (g ++ '/' :: '/' :: r) = some (g, '/' :: '/' :: r) :=
      Comment.cut_append_mark (hg.not_mem rfl) (Comment.settled_code.after_gap hg)
        (by simpa [List.getLast?_eq_some_getLast hne] using hbefore) r
    rw [hcomment, Comment.split, Comment.cut_append_of_eq_none hcut hslashes, hafter, hmarked]
    show ((convertCode code ++ g).trimEnd).trimEnd = _
    rw [trimEnd_append_of_gap hg, trimEnd_trimEnd]

/-- When a line whose code ends in an opening bracket, a comma or a semicolon is converted to one
whose code ends so and has no further semicolon. Commas and semicolons are not kept at the end of
bindings, and no end is kept of a return, a call or a placement that is no header. -/
theorem convert_openEnd_iff (hc : c ∈ openEnds)
    (hlast : (Comment.split line).1.trimEnd.getLast? = some c) :
    (convert line = convertCode (Comment.split line).1 ++ (Comment.split line).2 ∧
      ('\\' ∉ (Comment.split line).1 →
        (Comment.split (convertCode (Comment.split line).1)).2 = [] →
        (Comment.split (convert line)).1.trimEnd =
          (convertCode (Comment.split line).1).trimEnd)) ∧
    (StaysOpen c (Comment.split line).1 ↔
      (c = ',' ∨ c = ';' → head? line ≠ some .binding) ∧
        (head? line = none → ¬IsStatement (inline (Comment.split line).1)) ∧
        (c = '[' → isCondition (expressions (recast (Comment.split line).1)).trimStart →
          (memberships (expressions (recast (Comment.split line).1))).trimEnd.getLast? =
            some '[')) := by
  rw [getLast?_trimEnd] at hlast
  have hblank : ¬(Comment.split line).1.isBlank := by
    rw [isBlank_iff_ink]
    intro hnil
    simp [hnil] at hlast
  refine ⟨⟨?_, fun hslash hmark => trimEnd_split_convert hslash hblank hmark⟩, ?_⟩
  · rw [convert_eq, if_neg hblank]
  · rw [staysOpen_iff hc hlast, head?, Option.map_eq_none_iff]

/-- The head of a literal that goes on below stays open. -/
theorem convert_openEnd_literal :
    (Comment.split "config = \x7b  // all").1.trimEnd.getLast? = some '{' ∧
      StaysOpen '{' (Comment.split "config = \x7b  // all").1 ∧
      (Comment.split (convert "config = \x7b  // all")).1.trimEnd.getLast? = some '{' := by
  have hlast : (Comment.split "config = \x7b  // all").1.trimEnd.getLast? = some '{' := by decide
  obtain ⟨⟨-, hsplit⟩, hopen⟩ := convert_openEnd_iff (by decide) hlast
  have hstays : StaysOpen '{' (Comment.split "config = \x7b  // all").1 := by
    rw [hopen]
    refine ⟨by decide, fun hnone => absurd hnone ?_, by decide⟩
    decide +kernel
  refine ⟨hlast, hstays, ?_⟩
  rw [hsplit (by decide) (by decide +kernel)]
  exact hstays.1

/-- Not every open end is kept: a return whose value goes on below is closed. -/
theorem not_convert_openEnd :
    ¬∀ (line : Text) (c : Char), c ∈ openEnds →
      (Comment.split line).1.trimEnd.getLast? = some c →
        (Comment.split (convert line)).1.trimEnd.getLast? = some c := by
  intro h
  have hreturn := h "return \x7b" '{' (by decide) (by decide)
  revert hreturn
  decide +kernel

end Line

end Oxidize
