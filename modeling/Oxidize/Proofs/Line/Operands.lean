import Oxidize.Proofs.Layout.Walk
import Oxidize.Proofs.Line.Conditions
import Oxidize.Proofs.Pattern.Takes

/-!
# Operands of ranges

The operands that a range is written with: a path, or the length of one, with any number of spaces
around it (`Operand`, `Padded`). The pattern of an operand is lazy and takes white space as well, so
what it takes is decided by what follows: it goes on as long as neither white space nor a mark comes
next (`run_operand_append`). In its argument it takes the operand without the spaces
(`takes_argument`), and a list of arguments takes each of its operands (`takes_arguments`).
-/

namespace Oxidize

open Pattern Text

/-! ### Operands -/

/-- An operand of a range: a path, or the length of what stands there. -/
structure Operand where
  path : Text
  measured : Bool
  dotted : Run isDotted path

namespace Operand

variable (o : Operand)

/-- What the operand begins with. -/
def front : Text :=
  if o.measured then "len" else o.path

/-- What follows in parentheses. -/
def back : Text :=
  if o.measured then "(" ++ o.path ++ ")" else []

/-- The operand in the script. -/
def source : Text :=
  o.front ++ o.back

/-- The operand in the converted loop. -/
def target : Text :=
  if o.measured then o.path ++ ".len()" else o.path

theorem run_front : Run isDotted o.front := by
  rw [front]
  split
  · decide
  · exact o.dotted

end Operand

/-- An operand with the numbers of spaces before and behind it. -/
structure Padded where
  before : Nat
  operand : Operand
  behind : Nat

/-- The operand with its spaces. -/
def Padded.write (p : Padded) : Text :=
  spaces p.before ++ p.operand.source ++ spaces p.behind

/-! ### The characters of an operand -/

/-- A character that an operand goes on with: of a path, or an opening parenthesis. -/
def Continues (c : Char) : Prop :=
  isDotted c ∨ c = '('

/-- The character behind an argument. -/
def IsMark (c : Char) : Prop :=
  c = ',' ∨ c = ')'

theorem isSpace_of_isDotted {c : Char} (hc : isDotted c) : isSpace c = false :=
  isSpace_of_isPlace (Membership.isPlace_of_isPath (isPath_of_isDotted hc))

theorem Continues.isSpace_eq {c : Char} (hc : Continues c) : isSpace c = false := by
  rcases hc with hc | rfl
  · exact isSpace_of_isDotted hc
  · rfl

theorem IsMark.not_continues {c : Char} (hc : IsMark c) : ¬ Continues c := by
  rcases hc with rfl | rfl <;> rintro (h | h) <;> cases h

theorem noneOf_of_isDotted {c : Char} {cs : Text} (hcs : ∀ d ∈ cs, isDotted d = false)
    (hc : isDotted c) : noneOf cs c := by
  have hmem : c ∉ cs := fun h => Bool.false_ne_true ((hcs c h).symm.trans hc)
  simpa [noneOf] using hmem

/-! ### What the pattern of an operand takes -/

section Operands

variable {o : Operand} {k : Cursor → Option (Match Field)} {before : Option Char} {v : Text}
  {m : Match Field}

/-- Parentheses are taken as a whole. -/
theorem takes_parentheses {u : Text} (hu : Run isDotted u) (before : Option Char) (v : Text) :
    ∃ last, (sequence [text "(", span (noneOf "()"), text ")"] : Pattern Field).Takes
      ⟨before, "(" ++ (u ++ (")" ++ v))⟩ ⟨last, v⟩ [] := by
  have hset : ∀ c ∈ u, noneOf "()" c := fun c hc => noneOf_of_isDotted (by decide) (hu.2 c hc)
  exact ⟨_, (takes_text "(" _ _).sequence ((takes_span hset (by rintro _ ⟨rfl⟩; rfl)).sequence
    ((takes_text ")" _ v).sequence (takes_nil _)))⟩

/-- The part in parentheses is taken in one round of the repetition. -/
theorem runStar_back {body : Pattern Field}
    (hbody : body = alt (one (noneOf ",()")) (sequence [text "(", span (noneOf "()"), text ")"]))
    (hk : ∀ c, Continues c → ∀ before r, k ⟨before, c :: r⟩ = none)
    (hend : ∀ last, k ⟨last, v⟩ = some m) (o : Operand) :
    runStar (run body) .lazy k (o.back ++ v).length ⟨before, o.back ++ v⟩ = some m := by
  rw [Operand.back]
  split
  · obtain ⟨last, hparentheses⟩ := takes_parentheses o.dotted before v
    have htext : "(" ++ o.path ++ ")" ++ v = '(' :: (o.path ++ (")" ++ v)) := by simp
    rw [htext, List.length_cons, runStar_lazy_of_none (hk '(' (.inr rfl) _ _), hbody, run_alt,
      run_one_cons, if_neg (by decide)]
    refine (hparentheses.run_eq _).trans ?_
    rw [runStar_lazy_of_some (hend last), Match.map_follow_mk_nil]
  · exact runStar_lazy_of_some (hend before) _

/-- An operand is taken as a whole if what follows cannot begin inside of it. -/
theorem run_operand_append (hk : ∀ c, Continues c → ∀ before r, k ⟨before, c :: r⟩ = none)
    (hend : ∀ last, k ⟨last, v⟩ = some m) :
    operand.run ⟨before, o.source ++ v⟩ k = some m := by
  obtain ⟨c, u, hfront⟩ := List.exists_cons_of_ne_nil o.run_front.1
  have hdotted : ∀ d ∈ c :: u, isDotted d := hfront ▸ o.run_front.2
  have hset : ∀ d ∈ c :: u, noneOf ",()" d := fun d hd =>
    noneOf_of_isDotted (by decide) (hdotted d hd)
  obtain ⟨hc, hu⟩ := List.forall_mem_cons.1 hset
  have hinside : ∀ d ∈ u, ∀ before r, k ⟨before, d :: r⟩ = none := fun d hd =>
    hk d (.inl (hdotted d (List.mem_cons_of_mem c hd)))
  rw [Operand.source, hfront, List.append_assoc, List.cons_append, operand, plus, run_seq, run_alt,
    run_one_cons, if_pos hc, run_star, List.length_append,
    runStar_lazy_append hu hinside _ (runStar_back rfl hk hend o)]
  rfl

/-- An argument takes its operand without the spaces around it. -/
theorem takes_argument {c : Char} (hc : IsMark c) (label : Field) (p : Padded)
    (before : Option Char) (v : Text) :
    (argument label [c]).Takes ⟨before, p.write ++ c :: v⟩ ⟨some c, v⟩
      [(label, p.operand.source)] := by
  have hspaces (n : Nat) : ∀ d ∈ spaces n, isSpace d := Layout.gap_spaces n
  have hhead (v : Text) : ∀ d ∈ (p.operand.source ++ v).head?, isSpace d = false := by
    rw [Operand.source, List.append_assoc]
    exact fun d hd => isSpace_of_isDotted (p.operand.run_front.set_of_head? _ d hd)
  have hmark : ∀ d ∈ (c :: v).head?, isSpace d = false := by
    rintro _ ⟨rfl⟩
    rcases hc with rfl | rfl <;> rfl
  have htext : p.write ++ c :: v =
      spaces p.before ++ (p.operand.source ++ (spaces p.behind ++ c :: v)) := by
    simp [Padded.write]
  refine takes_atomic ?_
  rw [htext, matchAt?, run_sequence_cons, run_many]
  refine runMany_greedy_append (hspaces _) (hhead _) ?_
  rw [run_sequence_cons, run_field]
  refine run_operand_append (fun d hd last r => ?_) (fun last => ?_)
  · -- Neither white space nor the mark comes next.
    have hne : d ≠ c := by
      rintro rfl
      exact hc.not_continues hd
    have hskip : Cursor.skip ⟨last, d :: r⟩ isSpace = ⟨last, d :: r⟩ :=
      Cursor.skip_append (u := []) (by simp) (by rintro _ ⟨rfl⟩; exact hd.isSpace_eq) last
    have hpass : Cursor.pass? ⟨last, d :: r⟩ [c] = none := if_neg hne
    rw [run_sequence_cons, gap, run_span, hskip, run_sequence_cons, run_text, hpass]
    rfl
  · have hgap : gap.Takes ⟨last, spaces p.behind ++ c :: v⟩
        ⟨(spaces p.behind).getLast?.or last, c :: v⟩ [] :=
      takes_span (hspaces p.behind) hmark
    have hend := hgap.sequence ((takes_text [c] _ v).sequence (takes_nil _))
    rw [hend.run_eq, Option.map_some, Option.map_some, Cursor.upTo_eq rfl]
    rfl

end Operands

/-! ### Lists of arguments -/

/-- The patterns of some arguments. A comma ends each but the last, which a parenthesis closes. -/
def argumentList : List Field → List (Pattern Field)
  | [] => []
  | [f] => [argument f [')']]
  | f :: g :: fs => argument f [','] :: argumentList (g :: fs)

/-- Arguments as they are written, with the parenthesis that closes them. -/
def writeArguments : List Padded → Text
  | [] => []
  | [p] => p.write ++ [')']
  | p :: q :: ps => p.write ++ ',' :: writeArguments (q :: ps)

theorem takes_arguments {args : List (Field × Padded)} (hne : args ≠ []) (before : Option Char)
    (v : Text) :
    (sequence (argumentList (args.map Prod.fst))).Takes
      ⟨before, writeArguments (args.map Prod.snd) ++ v⟩ ⟨some ')', v⟩
      (args.map fun a => (a.1, a.2.operand.source)) := by
  induction args generalizing before with
  | nil => exact absurd rfl hne
  | cons a args ih =>
    cases args with
    | nil =>
      have hargument := takes_argument (.inr rfl) a.1 a.2 before v
      simpa [argumentList, writeArguments] using hargument.sequence (takes_nil _)
    | cons b args =>
      have hargument := takes_argument (.inl rfl) a.1 a.2 before
        (writeArguments ((b :: args).map Prod.snd) ++ v)
      have hfurther := ih (List.cons_ne_nil b args) (some ',')
      simpa [argumentList, writeArguments] using hargument.sequence hfurther

/-! ### Lengths -/

/-- Measuring makes `t'` of `t`, whatever stands before it. -/
def Measures (t t' : Text) : Prop :=
  ∀ before, Inline.length.form.pattern.replaceFrom Inline.length.form.expand 0 before t = t'

section Lengths

variable {c : Char} {t t' u : Text}

theorem Measures.nil : Measures [] [] :=
  fun _ => rfl

theorem matchAt?_length_eq_none (hno : ¬ "len(".toList <+: t) (before : Option Char) :
    Inline.length.form.pattern.matchAt? ⟨before, t⟩ = none := by
  refine Option.eq_none_iff_forall_ne_some.2 fun m hm => hno ?_
  obtain ⟨x, ht, hreads⟩ := exists_reads_of_matchAt? hm
  rw [Inline.form, Inline.pattern, reads_sequence_edge, reads_sequence_text] at hreads
  obtain ⟨w, rfl, -⟩ := hreads
  rw [ht, List.append_assoc]
  exact List.prefix_append _ _

/-- Where no length begins, a character is kept. -/
theorem Measures.cons (hno : ¬ "len(".toList <+: c :: t) (h : Measures t t') :
    Measures (c :: t) (c :: t') := by
  intro before
  rw [replaceFrom_cons_of_none (matchAt?_length_eq_none hno before), h]

theorem Measures.other (hu : 'l' ∉ u) (h : Measures t t') : Measures (u ++ t) (u ++ t') := by
  induction u with
  | nil => exact h
  | cons c u ih =>
    rw [List.mem_cons, not_or] at hu
    refine .cons (fun hlength => ?_) (ih hu.2)
    exact hu.1 (List.cons_prefix_cons.1 hlength).1

/-- No length begins in a path, unless what follows could go on with it. -/
theorem not_length_prefix_append (hu : ∀ c ∈ u, isDotted c)
    (ht : ∀ c ∈ t.head?, c ∉ "len(".toList) : ¬ "len(".toList <+: u ++ t := by
  intro hlength
  have hpath : '(' ∉ u := fun h => nomatch hu '(' h
  rcases List.prefix_or_prefix_of_prefix hlength (List.prefix_append u t) with h | ⟨w, hw⟩
  · exact hpath (h.subset (by decide))
  · obtain ⟨r, hr⟩ := hlength
    rw [← hw, List.append_assoc] at hr
    cases w with
    | nil => exact hpath (by rw [← List.append_nil u, hw]; decide)
    | cons c w =>
      have hc : t.head? = some c := by rw [← List.append_cancel_left hr]; rfl
      exact ht c hc (hw ▸ List.mem_append_right u List.mem_cons_self)

theorem Measures.path (hu : ∀ c ∈ u, isDotted c) (ht : ∀ c ∈ t.head?, c ∉ "len(".toList)
    (h : Measures t t') : Measures (u ++ t) (u ++ t') := by
  induction u with
  | nil => exact h
  | cons c u ih => exact .cons (not_length_prefix_append hu ht) (ih (List.forall_mem_cons.1 hu).2)

theorem place_of_dotted (hu : Run isDotted u) : Run isPlace u :=
  ⟨hu.1, fun c hc => Membership.isPlace_of_isPath (isPath_of_isDotted (hu.2 c hc))⟩

theorem takes_length (hu : Run isDotted u) (hc : isWord c = false) (t : Text) :
    ∃ last, Inline.length.form.pattern.Takes ⟨some c, "len(" ++ (u ++ (')' :: t))⟩ ⟨last, t⟩
      [(.arg, u)] := by
  have hgap {before : Option Char} {v : Text} (hv : ∀ d ∈ v.head?, isSpace d = false) :
      gap.Takes ⟨before, v⟩ ⟨before, v⟩ [] :=
    takes_span (u := []) (by simp) hv
  have hhead : ∀ d ∈ (u ++ (')' :: t)).head?, isSpace d = false := fun d hd =>
    isSpace_of_isDotted (hu.set_of_head? _ d hd)
  have hedge : Cursor.atEdge ⟨some c, "len(" ++ (u ++ (')' :: t))⟩ := by
    have hword : isWord 'l' := rfl
    simp [Cursor.atEdge, hc, hword]
  exact ⟨_, (takes_edge hedge).sequence ((takes_text "len(" _ _).sequence ((hgap hhead).sequence
    ((takes_chars (place_of_dotted hu) (by rintro _ ⟨rfl⟩; rfl)).field .arg |>.sequence
      ((hgap (by rintro _ ⟨rfl⟩; rfl)).sequence ((takes_text [')'] _ t).sequence (takes_nil _))))))⟩

/-- A length is turned behind a character of no word. -/
theorem Measures.length (hu : Run isDotted u) (hc : isWord c = false) (h : Measures t t') :
    Measures (c :: ("len(" ++ u ++ ")" ++ t)) (c :: (u ++ ".len()" ++ t')) := by
  have hkept : ¬ "len(".toList <+: c :: ("len(" ++ u ++ ")" ++ t) := by
    intro hlength
    obtain rfl : 'l' = c := (List.cons_prefix_cons.1 hlength).1
    cases hc
  intro before
  obtain ⟨last, htakes⟩ := takes_length hu hc t
  have hmatch : Inline.length.form.pattern.matchAt? ⟨some c, "len(" ++ u ++ ")" ++ t⟩ =
      some ⟨⟨last, t⟩, [(.arg, u)]⟩ := by
    rw [List.append_assoc, List.append_assoc]
    exact htakes.matchAt?_eq
  rw [replaceFrom_cons_of_none (matchAt?_length_eq_none hkept before),
    replaceFrom_append_of_some (by simp) hmatch rfl, h]
  simp [Inline.form, Inline.template, Form.expand, Piece.expand]

/-- An operand behind a character of no word: a length is turned, a path is kept. -/
theorem Measures.operand (o : Operand) (hc : isWord c = false)
    (ht : ∀ d ∈ t.head?, d ∉ "len(".toList) (h : Measures t t') :
    Measures (c :: (o.source ++ t)) (c :: (o.target ++ t')) := by
  rw [Operand.source, Operand.front, Operand.back, Operand.target]
  split
  · simpa using Measures.length o.dotted hc h
  · have hne : 'l' ∉ [c] := by
      intro hmem
      obtain rfl := List.mem_singleton.1 hmem
      cases hc
    rw [List.append_nil]
    exact .other hne (.path o.dotted.2 ht h)

end Lengths

end Oxidize
