import Oxidize.Proofs.Line.Arguments

/-!
# Heads of loops

The head of a loop is cut in one way only up to what it runs over (`LoopHead.items_append_inj`), and
no header but that of a block fits it (`LoopHead.construct_eq_block`). If it runs over a range, it
fits the header of one range only, since the commas of the call are counted in one way
(`Header.eq_of_isSome_recast?`). On one line it also fits the header of loops over collections
(`Header.isSome_forEach`), which writes it differently (`Header.ne_of_forEach`).
-/

namespace Oxidize

open Pattern Text

theorem Text.Gap.count_parenthesis {g : Text} (hg : Gap g) : g.count '(' = 0 :=
  List.count_eq_zero.2 (hg.not_mem rfl)

/-! ### Heads of loops -/

/-- The head of a loop, apart from what it runs over: the texts around it and what is known of
them. -/
structure LoopHead where
  ind : Text
  behindFor : Text
  target : Text
  behindTarget : Text
  behindIn : Text
  beforeColon : Text
  behindColon : Text
  gap_ind : Gap ind
  space_behindFor : Run isSpace behindFor
  word_target : Run isWord target
  space_behindTarget : Run isSpace behindTarget
  space_behindIn : Run isSpace behindIn
  gap_beforeColon : Gap beforeColon
  gap_behindColon : Gap behindColon

namespace LoopHead

variable {l l' : LoopHead} {items items' : Text}

/-- What stands in front of the colon and behind it. -/
def colon (l : LoopHead) : Text :=
  l.beforeColon ++ (":" ++ l.behindColon)

/-- What follows the indent and the first keyword. -/
def tail (l : LoopHead) (items : Text) : Text :=
  l.behindFor ++ (l.target ++ (l.behindTarget ++ ("in" ++ (l.behindIn ++ (items ++ l.colon)))))

/-- The head of the loop in the script. -/
def line (l : LoopHead) (items : Text) : Text :=
  l.ind ++ ("for" ++ l.tail items)

/-- The head of the converted loop. -/
def opening (l : LoopHead) (items : Text) : Text :=
  l.ind ++ "for " ++ l.target ++ " in " ++ items ++ " \x7b"

theorem mem_line {c : Char} (hc : c ∈ items) : c ∈ l.line items := by
  simp [line, tail, hc]

theorem isSpace_of_head?_target (l : LoopHead) (v : Text) :
    ∀ c ∈ (l.target ++ v).head?, isSpace c = false :=
  fun c hc => Line.isSpace_of_isWord (l.word_target.set_of_head? v c hc)

theorem isWord_of_head?_space {s : Text} (hs : Run isSpace s) (v : Text) :
    ∀ c ∈ (s ++ v).head?, isWord c = false :=
  fun c hc => isWord_of_isSpace (hs.set_of_head? v c hc)

/-- Where the text begins that a loop runs over is seen in the line. -/
theorem items_append_inj (hitems : ∀ c ∈ (items ++ l.colon).head?, isSpace c = false)
    (hitems' : ∀ c ∈ (items' ++ l'.colon).head?, isSpace c = false)
    (h : l.line items = l'.line items') : items ++ l.colon = items' ++ l'.colon := by
  have hfor (v : Text) : ∀ c ∈ ("for" ++ v).head?, isSpace c = false := by
    rintro _ ⟨rfl⟩
    rfl
  have hin (v : Text) : ∀ c ∈ ("in" ++ v).head?, isSpace c = false := by
    rintro _ ⟨rfl⟩
    rfl
  obtain ⟨-, h⟩ := run_append_inj l.gap_ind l'.gap_ind (hfor _) (hfor _) h
  obtain ⟨-, h⟩ := run_append_inj l.space_behindFor.2 l'.space_behindFor.2
    (l.isSpace_of_head?_target _) (l'.isSpace_of_head?_target _) (List.append_cancel_left h)
  obtain ⟨-, h⟩ := run_append_inj l.word_target.2 l'.word_target.2
    (isWord_of_head?_space l.space_behindTarget _) (isWord_of_head?_space l'.space_behindTarget _) h
  obtain ⟨-, h⟩ := run_append_inj l.space_behindTarget.2 l'.space_behindTarget.2
    (hin _) (hin _) h
  exact (run_append_inj l.space_behindIn.2 l'.space_behindIn.2 hitems hitems'
    (List.append_cancel_left h)).2

/-! ### Parentheses in the line -/

theorem count_parenthesis_target (l : LoopHead) : l.target.count '(' = 0 :=
  List.count_eq_zero.2 (l.word_target.not_mem rfl)

theorem count_parenthesis_line (l : LoopHead) (items : Text) :
    (l.line items).count '(' = items.count '(' := by
  simp [line, tail, colon, l.gap_ind.count_parenthesis, l.space_behindFor.gap.count_parenthesis,
    l.count_parenthesis_target, l.space_behindTarget.gap.count_parenthesis,
    l.space_behindIn.gap.count_parenthesis, l.gap_beforeColon.count_parenthesis,
    l.gap_behindColon.count_parenthesis]

theorem count_parenthesis_opening (l : LoopHead) (items : Text) :
    (l.opening items).count '(' = items.count '(' := by
  simp [opening, l.gap_ind.count_parenthesis, l.count_parenthesis_target]

/-! ### Headers that fit the line -/

theorem reaches_colonEnd (l : LoopHead) (before : Option Char) :
    colonEnd.Reaches ⟨before, l.colon⟩ ⟨l.behindColon.getLast?.or (some ':'), []⟩ :=
  (reaches_span l.gap_beforeColon (by rintro _ ⟨rfl⟩; rfl)).sequence
    ((reaches_text ":" _ _).sequence (reaches_end l.gap_behindColon _))

/-- A loop over anything that stands on one line is a loop over a collection. -/
theorem reaches_forEach (l : LoopHead) (hitems : Run inLine items) :
    ∃ s, Header.forEach.form.pattern.Reaches ⟨none, l.line items⟩ s := by
  have htarget : Run (noneOf ":") l.target := by
    refine ⟨l.word_target.1, fun c hc => ?_⟩
    have hne : c ≠ ':' := by
      rintro rfl
      exact l.word_target.not_mem rfl hc
    simpa [noneOf] using hne
  have hrun {g : Greed} {set : Char → Bool} {u : Text} (hu : Run set u) (before : Option Char)
      (v : Text) : (oneOrMore g set : Pattern Field).Reaches ⟨before, u ++ v⟩
        ⟨u.getLast?.or before, v⟩ :=
    (reads_oneOrMore.2 ⟨hu, rfl⟩).reaches rfl before v
  exact ⟨_, (reaches_indent l.gap_ind (by rintro _ ⟨rfl⟩; rfl)).sequence
    ((reaches_text "for" _ _).sequence ((hrun l.space_behindFor _ _).sequence
      ((hrun htarget _ _).field.sequence
        ((reaches_chars l.space_behindTarget (by rintro _ ⟨rfl⟩; rfl)).sequence
          ((reaches_text "in" _ _).sequence ((hrun l.space_behindIn _ _).sequence
            ((hrun hitems _ _).field.sequence
              ((l.reaches_colonEnd _).sequence (reaches_nil _)))))))))⟩

/-- The head of a loop is no head of a function or a record and no assignment. -/
theorem construct_eq_block {k : Header} {z : Text} (hk : k.Turns (l.line items) z) :
    k.construct = .block := by
  have gaps : ∀ {g}, Gap g → ink g = [] := Gap.ink_eq
  have hink : ink (l.line items) = 'f' :: 'o' :: 'r' :: ink (l.tail items) := by
    simp +decide [line, ink_cons, gaps l.gap_ind]
  -- A name in front of an equals sign would be the keyword, and the sign would begin the target.
  have hassignment {ind name g w : Text} (hind : Gap ind) (hname : Run isWord name) (hg : Gap g)
      (heq : ind ++ (name ++ (g ++ ("=" ++ w))) = l.line items) : False := by
    have hend : ∀ c ∈ (g ++ ("=" ++ w)).head?, isWord c = false :=
      Ending.not_head?_gap_append hg (fun _ => isWord_of_isSpace) (by rintro _ ⟨rfl⟩; decide)
    have hfor : ∀ c ∈ ("for" : Text), isWord c := by decide
    obtain ⟨-, h⟩ := run_append_inj hind l.gap_ind
      (fun c hc => Line.isSpace_of_isWord (hname.set_of_head? _ c hc)) (by rintro _ ⟨rfl⟩; rfl) heq
    obtain ⟨-, h⟩ := run_append_inj hname.2 hfor hend
      (isWord_of_head?_space l.space_behindFor _) h
    obtain ⟨-, h⟩ := run_append_inj hg l.space_behindFor.2 (by rintro _ ⟨rfl⟩; rfl)
      (l.isSpace_of_head?_target _) h
    have hword : isWord '=' := l.word_target.set_of_head? _ '=' (by rw [← h]; rfl)
    exact absurd hword (by decide)
  generalize hx : l.line items = x at hk hink
  cases hk with
  | functionTo hind hkey | function hind hkey =>
    rcases hkey with rfl | rfl <;> simp +decide [ink_cons, gaps hind] at hink
  | record hind => simp +decide [ink_cons, gaps hind] at hink
  | openBinding hind hname h₁ | binding hind hname h₁ =>
    exact (hassignment hind hname h₁ (by simpa using hx.symm)).elim
  | overRange hi => cases k <;> cases hi <;> rfl
  | forEach | otherwise => rfl
  | conditional hkey => cases hkey <;> rfl

end LoopHead

/-! ### Loops over ranges -/

namespace Header

variable {h k : Header} {i : Inline} {x y z : Text}

/-- The headers of loops over ranges, in the order in which they are tried. -/
def rangeLoops : List Header :=
  [rangeStep, rangeBetween, rangeTo]

theorem isSome_range? : ∀ h ∈ rangeLoops, h.range?.isSome := by
  decide

theorem commas_inj : ∀ h ∈ rangeLoops, ∀ k ∈ rangeLoops, h.commas = k.commas → h = k := by
  decide

theorem turns_of_recast? (hy : h.form.recast? x = some y) : h.Turns x y :=
  turns_of_recasts (Form.recasts_of_recast? h.isWhole_pattern hy)

/-- The head of a loop over a range is the head of a loop over the call that stands for it. -/
theorem Turns.exists_loopHead (hxy : h.Turns x y) (hi : h.range? = some i) :
    ∃ (l : LoopHead) (call operands : Text), i.Turns call operands ∧ x = l.line call ∧
      y = l.opening operands := by
  cases hxy with
  | overRange hj hind h₁ htarget h₂ h₃ hcall h₄ h₅ =>
    obtain rfl := Option.some.inj (hj.symm.trans hi)
    exact ⟨⟨_, _, _, _, _, _, _, hind, h₁, htarget, h₂, h₃, h₄, h₅⟩, _, _, hcall,
      by simp [LoopHead.line, LoopHead.tail, LoopHead.colon], rfl⟩
  | conditional hkey => cases hkey <;> cases hi
  | _ => cases hi

theorem exists_loopHead_of_recast? (hh : h ∈ rangeLoops) (hy : h.form.recast? x = some y) :
    ∃ i, h.range? = some i ∧ ∃ (l : LoopHead) (call operands : Text), i.Turns call operands ∧
      x = l.line call ∧ y = l.opening operands := by
  obtain ⟨i, hi⟩ := Option.isSome_iff_exists.1 (isSome_range? h hh)
  exact ⟨i, hi, (turns_of_recast? hy).exists_loopHead hi⟩

theorem isSpace_of_head?_call (t : Text) :
    ∀ c ∈ ("range(" ++ t : Text).head?, isSpace c = false := by
  rintro _ ⟨rfl⟩
  rfl

/-- A line fits the header of one loop over a range at most. -/
theorem eq_of_isSome_recast? (hh : h ∈ rangeLoops) (hk : k ∈ rangeLoops)
    (hx : (h.form.recast? x).isSome) (hx' : (k.form.recast? x).isSome) : h = k := by
  obtain ⟨y, hy⟩ := Option.isSome_iff_exists.1 hx
  obtain ⟨z, hz⟩ := Option.isSome_iff_exists.1 hx'
  obtain ⟨i, hi, l, call, _, hcall, hline, -⟩ := exists_loopHead_of_recast? hh hy
  obtain ⟨j, hj, l', call', _, hcall', hline', -⟩ := exists_loopHead_of_recast? hk hz
  obtain ⟨t, ht, rfl⟩ := exists_arguments hi hcall
  obtain ⟨t', ht', rfl⟩ := exists_arguments hj hcall'
  have hrest : "range(" ++ t ++ l.colon = "range(" ++ t' ++ l'.colon :=
    LoopHead.items_append_inj (isSpace_of_head?_call _) (isSpace_of_head?_call _)
      (hline.symm.trans hline')
  rw [List.append_assoc, List.append_assoc] at hrest
  obtain ⟨hcommas, -⟩ := ht.append_inj ht' (List.append_cancel_left hrest)
  exact commas_inj h hh k hk hcommas

/-- On one line, a loop over a range is a loop over a collection. -/
theorem isSome_forEach (hh : h ∈ rangeLoops) (hx : (h.form.recast? x).isSome) (hline : '\n' ∉ x) :
    (forEach.form.recast? x).isSome := by
  obtain ⟨y, hy⟩ := Option.isSome_iff_exists.1 hx
  obtain ⟨i, hi, l, call, _, hcall, rfl, -⟩ := exists_loopHead_of_recast? hh hy
  obtain ⟨t, -, rfl⟩ := exists_arguments hi hcall
  have hitems : Run inLine ("range(" ++ t) := by
    refine ⟨List.cons_ne_nil _ _, fun c hc => ?_⟩
    have hne : c ≠ '\n' := by
      rintro rfl
      exact hline (LoopHead.mem_line hc)
    simpa [inLine] using hne
  obtain ⟨s, hs⟩ := l.reaches_forEach hitems
  rw [Form.recast?, Option.isSome_map]
  exact isSome_find? hs

/-- A range has not as many parentheses as the call that stands for it. -/
theorem count_parenthesis_range (hi : h.range? = some i) (hxy : i.Turns x y) :
    y.count '(' ≠ x.count '(' := by
  cases h <;> cases hi <;> cases hxy
  case rangeStep.refl.rangeStep h₁ _ h₂ h₃ _ h₄ h₅ _ h₆ =>
    simp [h₁.count_parenthesis, h₂.count_parenthesis, h₃.count_parenthesis, h₄.count_parenthesis,
      h₅.count_parenthesis, h₆.count_parenthesis]
  case rangeBetween.refl.rangeBetween h₁ _ h₂ h₃ _ h₄ =>
    simp [h₁.count_parenthesis, h₂.count_parenthesis, h₃.count_parenthesis, h₄.count_parenthesis]
  case rangeTo.refl.rangeTo h₁ _ h₂ =>
    simp [h₁.count_parenthesis, h₂.count_parenthesis]

/-- A loop over a collection keeps the parentheses of its line. -/
theorem count_parenthesis_forEach (hxz : forEach.Turns x z) : z.count '(' = x.count '(' := by
  cases hxz with
  | overRange hi => cases hi
  | forEach hind h₁ _ h₂ h₃ _ h₄ h₅ =>
    simp [hind.count_parenthesis, h₁.gap.count_parenthesis, h₂.gap.count_parenthesis,
      h₃.gap.count_parenthesis, h₄.count_parenthesis, h₅.count_parenthesis]
  | conditional hkey => cases hkey

/-- A loop over a range and the loop over the same collection are written differently. -/
theorem ne_of_forEach (hh : h ∈ rangeLoops) (hy : h.form.recast? x = some y)
    (hz : forEach.form.recast? x = some z) : z ≠ y := by
  obtain ⟨i, hi, l, call, operands, hcall, rfl, rfl⟩ := exists_loopHead_of_recast? hh hy
  rintro rfl
  refine count_parenthesis_range hi hcall ?_
  have hcount := count_parenthesis_forEach (turns_of_recast? hz)
  rwa [l.count_parenthesis_opening, l.count_parenthesis_line] at hcount

/-- A loop over a range fits the headers of blocks only. -/
theorem recast?_eq_none_of_mem_rangeLoops (hh : h ∈ rangeLoops) (hy : h.form.recast? x = some y)
    (hk : k.construct ≠ .block) : k.form.recast? x = none := by
  obtain ⟨i, -, l, call, _, -, rfl, -⟩ := exists_loopHead_of_recast? hh hy
  refine Option.eq_none_iff_forall_ne_some.2 fun z hz => hk ?_
  exact LoopHead.construct_eq_block (turns_of_recast? hz)

end Header

end Oxidize
