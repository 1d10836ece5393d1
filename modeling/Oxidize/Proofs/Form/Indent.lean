import Mathlib.Data.List.Basic
import Oxidize.Form.Ending
import Oxidize.Proofs.Form.Header
import Oxidize.Proofs.Pattern.Alike
import Oxidize.Proofs.Text.Letters

/-!
# White space in front of a text

Headers and endings keep the indent of a line: white space in front of a text becomes a part of it
and changes nothing else (`Form.KeepsIndent`). Inline forms pass over such white space: they find
nothing in it, and they find the same behind it as at the start of a text, since white space and the
start of a text are no part of a word (`Form.PassesSpace`).
-/

namespace Oxidize

open Pattern Text

variable {w t : Text}

theorem any_isWord_of_gap (hw : Gap w) :
    (w.getLast?.or none).any isWord = (none : Option Char).any isWord := by
  rw [Option.or_none]
  cases h : w.getLast? with
  | none => rfl
  | some c => exact isWord_of_isSpace (hw c (List.mem_of_getLast? h))

/-! ### Forms that keep the indent -/

/-- The same match with white space in front of its indent. -/
structure Match.Indented (w : Text) (m n : Match Field) : Prop where
  stop : m.stop.Alike n.stop
  fields : ∃ ind fs, m.fields = (.indent, ind) :: fs ∧ n.fields = (.indent, w ++ ind) :: fs

theorem Match.Indented.follow {m n a b : Match Field} (h : m.Indented w n) (h' : a.Alike b) :
    (m.follow a).Indented w (n.follow b) := by
  obtain ⟨ind, fs, hm, hn⟩ := h.fields
  refine ⟨h'.stop, ind, fs ++ a.fields, ?_, ?_⟩
  · rw [Match.follow, hm, List.cons_append]
  · rw [Match.follow, hn, List.cons_append, h'.fields_eq]

namespace Pattern

variable {p q : Pattern Field}

/-- White space in front of a text becomes a part of the indent and changes nothing else. -/
def TakesIndent (p : Pattern Field) : Prop :=
  ∀ w t, Gap w → List.Forall₂ (Match.Indented w) (p.ways ⟨none, t⟩) (p.ways ⟨none, w ++ t⟩)

theorem skipFrom_append {set : Char → Bool} (hw : ∀ c ∈ w, set c) (before : Option Char)
    (t : Text) :
    Cursor.skipFrom set before (w ++ t) = Cursor.skipFrom set (w.getLast?.or before) t := by
  induction w generalizing before with
  | nil => rfl
  | cons c w ih =>
    rw [List.forall_mem_cons] at hw
    rw [List.cons_append, Cursor.skipFrom, if_pos hw.1, ih hw.2, getLast?_cons_or]

theorem takesIndent_indent : indent.TakesIndent := by
  intro w t hw
  have hskip : (Cursor.skipFrom isSpace none t).Alike (Cursor.skipFrom isSpace none (w ++ t)) := by
    rw [skipFrom_append hw]
    exact Cursor.alike_skipFrom isSpace (any_isWord_of_gap hw).symm t
  obtain ⟨u, -, hpass⟩ := Cursor.passes_skipFrom isSpace none t
  have hindent : Cursor.upTo ⟨none, w ++ t⟩ (Cursor.skipFrom isSpace none (w ++ t)) = w ++ u := by
    refine Cursor.upTo_eq ?_
    rw [List.append_assoc, ← hskip.rest_eq]
    exact congrArg (w ++ ·) hpass.rest_eq
  have hways (t : Text) : indent.ways ⟨none, t⟩ =
      [⟨Cursor.skipFrom isSpace none t,
        [(.indent, Cursor.upTo ⟨none, t⟩ (Cursor.skipFrom isSpace none t))]⟩] := rfl
  rw [hways, hways, hpass.upTo_eq, hindent]
  exact .cons ⟨hskip, u, [], rfl, rfl⟩ .nil

theorem TakesIndent.seq (hp : p.TakesIndent) (hq : q.isMobile) : (seq p q).TakesIndent :=
  fun w t hw => forall₂_flatMap_follow Match.Indented.stop Match.Indented.follow (forall₂_ways hq)
    (hp w t hw)

/-- A pattern that matches at the start of a text only is not found behind it. -/
theorem findFrom?_eq_none_of_opensText (hp : p.opensText) (c : Char) (r : Text) :
    p.findFrom? (some c) r = none := by
  have hmatch (c : Char) (r : Text) : p.matchAt? ⟨some c, r⟩ = none := by
    rw [matchAt?_eq_head?, List.head?_eq_none_iff, List.eq_nil_iff_forall_not_mem]
    intro m hm
    exact nomatch before_eq_none_of_opensText hp hm
  induction r generalizing c with
  | nil => exact hmatch c []
  | cons d r ih => rw [findFrom?_cons, hmatch, ih]; rfl

theorem find?_of_opensText (hp : p.opensText) (t : Text) : p.find? t = p.matchAt? ⟨none, t⟩ := by
  rw [find?]
  cases t with
  | nil => rfl
  | cons c r =>
    rw [findFrom?_cons, findFrom?_eq_none_of_opensText hp]
    cases p.matchAt? ⟨none, c :: r⟩ <;> rfl

end Pattern

/-- A form of whole texts that writes the indent once, in front. -/
structure Form.KeepsIndent (f : Form) : Prop where
  opensText : f.pattern.opensText
  takesIndent : f.pattern.TakesIndent
  template : ∃ pieces, f.template = .field .indent :: pieces ∧ .field .indent ∉ pieces

namespace Form

variable {f : Form} {fs : List Form} {m n : Match Field}

theorem KeepsIndent.expand_eq (hf : f.KeepsIndent) (h : m.Indented w n) :
    f.expand n = w ++ f.expand m := by
  obtain ⟨pieces, htemplate, hindent⟩ := hf.template
  obtain ⟨ind, fs, hm, hn⟩ := h.fields
  have hpieces : ∀ piece ∈ pieces, piece.expand n = piece.expand m := by
    intro piece hpiece
    cases piece with
    | text u => rfl
    | field label =>
      have hlabel : label ≠ .indent := fun heq => hindent (heq ▸ hpiece)
      simp only [Piece.expand, Match.get, hm, hn, List.lookup_cons, beq_false_of_ne hlabel]
  have hget : m.get .indent = ind ∧ n.get .indent = w ++ ind := by
    simp [Match.get, hm, hn]
  simp only [expand, htemplate, List.flatMap_cons, Piece.expand, hget.1, hget.2,
    List.flatMap_congr hpieces, List.append_assoc]

/-- White space in front of a text comes back in front of what the form makes of it. -/
theorem KeepsIndent.recast?_append (hf : f.KeepsIndent) (hw : Gap w) (t : Text) :
    f.recast? (w ++ t) = (f.recast? t).map (w ++ ·) := by
  have hways := hf.takesIndent w t hw
  rw [recast?, recast?, find?_of_opensText hf.opensText, find?_of_opensText hf.opensText,
    matchAt?_eq_head?, matchAt?_eq_head?]
  generalize f.pattern.ways ⟨none, t⟩ = ms, f.pattern.ways ⟨none, w ++ t⟩ = ns at hways ⊢
  cases hways with
  | nil => rfl
  | cons hmn _ => exact congrArg some (hf.expand_eq hmn)

end Form

/-- The indent stands in front of the patterns of all headers. -/
theorem Header.keepsIndent (h : Header) : h.form.KeepsIndent := by
  refine ⟨?_, ?_, h.body, rfl, ?_⟩
  · cases h <;> rfl
  · cases h with
    | functionTo | function => exact (takesIndent_indent.seq rfl).seq rfl
    | _ => exact takesIndent_indent.seq rfl
  · cases h <;> decide

theorem Ending.keepsIndent (e : Ending) : e.form.KeepsIndent := by
  refine ⟨rfl, takesIndent_indent.seq ?_, [.field .statement, .text ";"], rfl, by decide⟩
  cases e <;> rfl

/-! ### Forms that pass over white space -/

/-- A form of pieces of a text that begin with a character that is no white space. -/
structure Form.PassesSpace (f : Form) : Prop where
  isMobile : f.pattern.isMobile
  head_ink : ∀ x y, f.Recasts x y → ∃ c r, x = c :: r ∧ isSpace c = false

namespace Form

variable {f : Form} {fs : List Form}

theorem expand_congr {m n : Match Field} (h : m.fields = n.fields) : f.expand m = f.expand n := by
  have hpieces : Piece.expand m = Piece.expand n := by
    funext piece
    cases piece with
    | text u => rfl
    | field label => simp only [Piece.expand, Match.get, h]
  rw [expand, expand, hpieces]

theorem PassesSpace.matchAt?_eq_none (hf : f.PassesSpace) {c : Char} (hc : isSpace c)
    (before : Option Char) (r : Text) : f.pattern.matchAt? ⟨before, c :: r⟩ = none := by
  rw [Option.eq_none_iff_forall_ne_some]
  intro m hm
  obtain ⟨x, hx, hreads⟩ := exists_reads_of_matchAt? hm
  obtain ⟨d, x, rfl, hd⟩ := hf.head_ink x (f.expand m) ⟨m, hreads, rfl⟩
  obtain ⟨rfl, -⟩ := List.cons.inj hx
  exact Bool.false_ne_true (hd.symm.trans hc)

theorem PassesSpace.replaceFrom_append (hf : f.PassesSpace) (hw : Gap w) (before : Option Char)
    (t : Text) :
    f.pattern.replaceFrom f.expand 0 before (w ++ t) =
      w ++ f.pattern.replaceFrom f.expand 0 (w.getLast?.or before) t := by
  induction w generalizing before with
  | nil => rfl
  | cons c w ih =>
    rw [Gap, List.forall_mem_cons] at hw
    rw [List.cons_append, replaceFrom_cons_of_none (hf.matchAt?_eq_none hw.1 before _), ih hw.2,
      getLast?_cons_or, List.cons_append]

/-- White space in front of a text stays there, and behind it the text is recast as on its own. -/
theorem PassesSpace.recastAll_append (hf : f.PassesSpace) (hw : Gap w) (t : Text) :
    f.recastAll (w ++ t) = w ++ f.recastAll t := by
  rw [recastAll, recastAll, Pattern.replaceAll, Pattern.replaceAll, hf.replaceFrom_append hw,
    replaceFrom_congr hf.isMobile (fun _ _ => expand_congr) (any_isWord_of_gap hw)]

theorem recastWith_append (hfs : ∀ f ∈ fs, f.PassesSpace) (hw : Gap w) (t : Text) :
    recastWith fs (w ++ t) = w ++ recastWith fs t := by
  induction fs generalizing t with
  | nil => rfl
  | cons f fs ih =>
    rw [List.forall_mem_cons] at hfs
    rw [recastWith_cons, hfs.1.recastAll_append hw, ih hfs.2, recastWith_cons]

end Form

theorem Inline.passesSpace (i : Inline) : i.form.PassesSpace := by
  refine ⟨by cases i <;> rfl, fun x y hxy => ?_⟩
  cases turns_of_recasts hxy <;> exact ⟨_, _, rfl, by decide⟩

theorem isSpace_of_isPlace {c : Char} (hc : isPlace c) : isSpace c = false := by
  cases hspace : isSpace c with
  | false => rfl
  | true =>
    have hmem : c ∈ ".[]\"'".toList := by
      simpa [isPlace, isWord_of_isSpace hspace, oneOf] using hc
    have hink : ".[]\"'".toList.all fun d => !isSpace d := by decide
    simpa [hspace] using List.all_eq_true.1 hink c hmem

theorem Membership.passesSpace (m : Membership) : m.form.PassesSpace := by
  refine ⟨by cases m <;> rfl, fun x y hxy => ?_⟩
  cases turns_of_recasts hxy with
  | absent hitem | present hitem =>
    obtain ⟨c, item, rfl⟩ := List.exists_cons_of_ne_nil hitem.1
    exact ⟨c, _, rfl, isSpace_of_isPlace (hitem.2 c List.mem_cons_self)⟩

end Oxidize
