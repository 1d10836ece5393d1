import Mathlib.Data.List.Induction
import Mathlib.Order.Bounds.Basic
import Oxidize.Proofs.Layout.Walk

/-!
# Depths in closed form

A script turns into openings and closings: a line closes before it is placed and opens behind itself
(`turns`). The depth follows these turns and stays at zero where a closing finds nothing to close,
so it is no plain difference of openings and closings. It is the greatest of these differences over
all ends of the turns so far, the empty end included (`isGreatest_follow`), or the difference over
all of them plus the closings that found nothing (`follow_eq_add_stray`). `place_closed_form` says
both of the lines of a script and of its end.
-/

namespace Oxidize.Layout

open Text

/-! ### Following turns -/

namespace Turn

variable {r : Int} {t : Turn} {ts : List Turn}

/-- How often some turns open more than they close. -/
def rise (ts : List Turn) : Int :=
  ts.count opening - ts.count closing

/-- What one turn adds to the rise. -/
def slope : Turn → Int
  | opening => 1
  | closing => -1

/-- The rises of the ends of some turns. -/
def endRises (ts : List Turn) : Set Int :=
  {r | ∃ s, s <:+ ts ∧ rise s = r}

/-- The depth behind some turns. -/
def follow (depth : Nat) (ts : List Turn) : Nat :=
  ts.foldl next depth

/-- How many of some turns close at depth zero. -/
def stray (depth : Nat) : List Turn → Nat
  | [] => 0
  | t :: ts => (if t = closing ∧ depth = 0 then 1 else 0) + stray (t.next depth) ts

@[simp] theorem rise_nil : rise [] = 0 := rfl

@[simp] theorem rise_singleton (t : Turn) : rise [t] = t.slope := by
  cases t <;> rfl

@[simp] theorem rise_append (ts us : List Turn) : rise (ts ++ us) = rise ts + rise us := by
  simp only [rise, List.count_append]
  omega

theorem rise_cons (t : Turn) (ts : List Turn) : rise (t :: ts) = t.slope + rise ts := by
  rw [← List.singleton_append, rise_append, rise_singleton]

@[simp] theorem follow_nil (depth : Nat) : follow depth [] = depth := rfl

@[simp] theorem follow_cons (depth : Nat) (t : Turn) (ts : List Turn) :
    follow depth (t :: ts) = follow (t.next depth) ts := rfl

@[simp] theorem follow_append (depth : Nat) (ts us : List Turn) :
    follow depth (ts ++ us) = follow (follow depth ts) us :=
  List.foldl_append

/-- An end of some turns is empty, or it ends in their last turn. -/
theorem mem_endRises_concat :
    r ∈ endRises (ts ++ [t]) ↔ r = 0 ∨ ∃ q ∈ endRises ts, r = q + t.slope := by
  constructor
  · rintro ⟨s, hs, rfl⟩
    rcases List.suffix_concat_iff.1 hs with rfl | ⟨u, rfl, hu⟩
    · exact .inl rfl
    · exact .inr ⟨rise u, ⟨u, hu, rfl⟩, by rw [rise_append, rise_singleton]⟩
  · rintro (rfl | ⟨_, ⟨u, hu, rfl⟩, rfl⟩)
    · exact ⟨[], List.nil_suffix, rfl⟩
    · exact ⟨u ++ [t], List.suffix_concat_iff.2 (.inr ⟨u, rfl, hu⟩), by simp⟩

/-- The depth is the greatest rise of an end. -/
theorem isGreatest_follow (ts : List Turn) : IsGreatest (endRises ts) (follow 0 ts) := by
  induction ts using List.reverseRecOn with
  | nil =>
    refine ⟨⟨[], List.nil_suffix, rfl⟩, ?_⟩
    rintro _ ⟨s, hs, rfl⟩
    rw [List.suffix_nil.1 hs]
    rfl
  | append_singleton ts t ih =>
    obtain ⟨hmem, hbound⟩ := ih
    rw [follow_append, follow_cons, follow_nil]
    constructor
    · -- A closing at depth zero leaves the empty end as the greatest.
      rw [mem_endRises_concat]
      cases t with
      | opening => exact .inr ⟨_, hmem, rfl⟩
      | closing =>
        rcases Nat.eq_zero_or_pos (follow 0 ts) with hzero | hpos
        · exact .inl (by rw [hzero]; rfl)
        · refine .inr ⟨_, hmem, ?_⟩
          simp only [next, closeBlock, slope]
          omega
    · intro r hr
      rcases mem_endRises_concat.1 hr with rfl | ⟨q, hq, rfl⟩
      · exact Int.natCast_nonneg _
      · have hle := hbound hq
        cases t <;> simp only [next, openBlock, closeBlock, slope] <;> omega

/-- The depth is the rise of all turns and the closings that found nothing to close. -/
theorem follow_eq_add_stray (depth : Nat) (ts : List Turn) :
    (follow depth ts : Int) = depth + rise ts + stray depth ts := by
  induction ts generalizing depth with
  | nil => simp [stray]
  | cons t ts ih =>
    rw [follow_cons, ih, rise_cons, stray]
    cases t with
    | opening => simp [next, openBlock, slope]; omega
    | closing =>
      by_cases hdepth : depth = 0
      · simp [next, closeBlock, slope, hdepth]; omega
      · simp [next, closeBlock, slope, hdepth]; omega

/-- Nothing is left open exactly if no end opens more than it closes. -/
theorem follow_eq_zero_iff :
    follow 0 ts = 0 ↔ ∀ s, s <:+ ts → s.count opening ≤ s.count closing := by
  obtain ⟨⟨u, hu, hrise⟩, hbound⟩ := isGreatest_follow ts
  constructor
  · intro hzero s hs
    have hle := hbound ⟨s, hs, rfl⟩
    rw [hzero, rise] at hle
    omega
  · intro h
    have hle := h u hu
    rw [rise] at hrise
    omega

end Turn

/-! ### The turns of a script -/

open Turn

variable {depth : Nat} {l : Text}

/-- The turn that a line takes before it is placed. -/
def turnsBefore (l : Text) : List Turn :=
  if closes l.trim then [closing] else []

/-- The turn that a line takes behind itself. -/
def turnsBehind (l : Text) : List Turn :=
  if opens l.trim then [opening] else []

/-- The turns of lines, in order. -/
def turns (ls : List Text) : List Turn :=
  ls.flatMap fun l => turnsBefore l ++ turnsBehind l

theorem turns_cons (l : Text) (ls : List Text) :
    turns (l :: ls) = turnsBefore l ++ turnsBehind l ++ turns ls :=
  List.flatMap_cons

/-- A blank line takes no turn. -/
theorem turns_of_blank (h : l.isBlank) : turnsBefore l ++ turnsBehind l = [] := by
  rw [turnsBefore, turnsBehind, trim_eq_nil_iff.2 h]
  rfl

theorem follow_turnsBefore (depth : Nat) (l : Text) :
    follow depth (turnsBefore l) = depthAt depth l.trim := by
  rw [turnsBefore, depthAt]
  split <;> rfl

theorem follow_turnsBehind (depth : Nat) (l : Text) :
    follow (depthAt depth l.trim) (turnsBehind l) = depthAfter depth l.trim := by
  rw [turnsBehind, depthAfter]
  split <;> rfl

theorem finalDepth_eq_follow (depth : Nat) (ls : List Text) :
    finalDepth depth ls = follow depth (turns ls) := by
  induction ls generalizing depth with
  | nil => rfl
  | cons l ls ih =>
    rw [turns_cons, follow_append]
    by_cases h : l.isBlank
    · rw [finalDepth_cons_of_blank h, turns_of_blank h, follow_nil, ih]
    · rw [finalDepth_cons_of_ink h, follow_append, follow_turnsBefore, follow_turnsBehind, ih]

theorem getElem?_place {a b : List Text} (h : ¬ l.isBlank) :
    (place depth (a ++ l :: b))[a.length]? =
      some ⟨follow depth (turns a ++ turnsBefore l), l.trim⟩ := by
  have hlength : (place depth a).length = a.length := length_place depth a
  rw [place_append, ← hlength, List.getElem?_append_right (Nat.le_refl _), Nat.sub_self,
    place_cons_of_ink h, List.getElem?_cons_zero, follow_append, follow_turnsBefore,
    finalDepth_eq_follow]

/-- A line stands at the greatest rise of an end of the turns before it, whatever the width, and the
depth behind the last line is that of all turns. So nothing is left open exactly if every end closes
as often as it opens, and what is left open are the openings without the closings, but for those
that found nothing to close. -/
theorem place_closed_form (ls : List Text) :
    (∀ a l b, ls = a ++ l :: b → ¬ l.isBlank → ∃ d : Nat,
      IsGreatest (endRises (turns a ++ turnsBefore l)) d ∧ (depths ls)[a.length]? = some d ∧
      ∀ width, (reindentLines width ls)[a.length]? = some (spaces (d * width) ++ l.trim)) ∧
    IsGreatest (endRises (turns ls)) (finalDepth 0 ls) ∧
    (finalDepth 0 ls = 0 ↔ ∀ s, s <:+ turns ls → s.count opening ≤ s.count closing) ∧
    (finalDepth 0 ls : Int) =
      (turns ls).count opening - (turns ls).count closing + stray 0 (turns ls) := by
  rw [finalDepth_eq_follow]
  refine ⟨?_, isGreatest_follow _, follow_eq_zero_iff, ?_⟩
  · rintro a l b rfl hblank
    refine ⟨_, isGreatest_follow _, ?_, fun width => ?_⟩
    · rw [depths, List.getElem?_map, getElem?_place hblank]
      rfl
    · rw [reindentLines, List.getElem?_map, getElem?_place hblank]
      rfl
  · rw [follow_eq_add_stray, rise]
    omega

/-- Braces that find nothing to close in front of a block with a comment that is left open. -/
theorem place_closed_form_stray :
    let ls : List Text := ["\x7d", " ", "\x7d else \x7b", "if a \x7b // b", "\tc;"]
    (¬ Text.isBlank "\tc;" ∧ turns ls = [closing, closing, opening, opening]) ∧
      (∃ d : Nat, IsGreatest (endRises [closing, closing, opening, opening]) d ∧
        (depths ls)[4]? = some d ∧
        (reindentLines 2 ls)[4]? = some (spaces (d * 2) ++ "c;".toList)) ∧
      finalDepth 0 ls = 2 := by
  intro ls
  have hblank : ¬ Text.isBlank "\tc;" := by decide
  have hturns : turns ls = [closing, closing, opening, opening] := by decide +kernel
  obtain ⟨hline, -, -, hdepth⟩ := place_closed_form ls
  obtain ⟨d, hgreatest, hd, hwritten⟩ := hline (ls.take 4) "\tc;" [] (by decide) hblank
  have hfront : turns (ls.take 4) ++ turnsBefore "\tc;" = [closing, closing, opening, opening] := by
    decide +kernel
  rw [hfront] at hgreatest
  refine ⟨⟨hblank, hturns⟩, ⟨d, hgreatest, hd, hwritten 2⟩, ?_⟩
  rw [hturns] at hdepth
  exact Int.ofNat_inj.1 (hdepth.trans (by decide))

end Oxidize.Layout
