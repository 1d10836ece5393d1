import Oxidize.Proofs.Form.Ending
import Oxidize.Proofs.Form.Indent
import Oxidize.Proofs.Pattern.Reaches
import Oxidize.Proofs.Text.Ink

/-!
# Which lines are statements

`Ending.IsStatement e x` lists the texts that an ending takes for a statement. An ending applies to
a line exactly if the line is such a text between white space (`Ending.isSome_recast?_iff`): every
match is one, and on every one the pattern gets through. The word edge behind `return` is the one
place where a match says more than what it reads.

Of the two headers for assignments, the one for values that go on in the lines below takes every
line that ends in an opening bracket (`Header.isSome_openBinding`).
-/

namespace Oxidize

open Pattern Text

namespace Pattern

variable {ι : Type} {p q : Pattern ι} {s t : Cursor} {m : Match ι}

theorem mem_ways_edge : m ∈ (edge : Pattern ι).ways s ↔ s.atEdge ∧ m = ⟨s, []⟩ := by
  simp only [ways]
  split <;> simp_all

theorem reaches_edge (h : s.atEdge) : (edge : Pattern ι).Reaches s s :=
  ⟨⟨s, []⟩, mem_ways_edge.2 ⟨h, rfl⟩, rfl⟩

theorem Reaches.alt_left (h : p.Reaches s t) : (alt p q).Reaches s t := by
  obtain ⟨m, hm, hstop⟩ := h
  exact ⟨m, List.mem_append_left _ hm, hstop⟩

theorem Reaches.alt_right (h : q.Reaches s t) : (alt p q).Reaches s t := by
  obtain ⟨m, hm, hstop⟩ := h
  exact ⟨m, List.mem_append_right _ hm, hstop⟩

theorem reaches_empty (s : Cursor) : (empty : Pattern ι).Reaches s s :=
  ⟨⟨s, []⟩, List.mem_singleton_self _, rfl⟩

/-- A run of characters is taken as a whole if it cannot go on. -/
theorem reaches_chars {set : Char → Bool} {u v : Text} {before : Option Char} (hu : Run set u)
    (hv : ∀ c ∈ v.head?, set c = false) :
    (chars set : Pattern ι).Reaches ⟨before, u ++ v⟩ ⟨u.getLast?.or before, v⟩ := by
  obtain ⟨hne, hset⟩ := hu
  obtain ⟨c, u, rfl⟩ := List.exists_cons_of_ne_nil hne
  rw [List.forall_mem_cons] at hset
  rw [getLast?_cons_or]
  exact (reaches_one hset.1 before (u ++ v)).seq (reaches_span hset.2 hv)

/-- The white space at the start of a line is its indent. -/
theorem reaches_indent {ind v : Text} (hind : Gap ind) (hv : ∀ c ∈ v.head?, isSpace c = false) :
    indent.Reaches ⟨none, ind ++ v⟩ ⟨ind.getLast?.or none, v⟩ :=
  (reaches_start _).sequence ((reaches_span hind hv).field.sequence (reaches_nil _))

/-- White space at the end of a line is all that is left of it. -/
theorem reaches_end {g : Text} (hg : Gap g) (last : Option Char) :
    (sequence [gap, stop]).Reaches ⟨last, g⟩ ⟨g.getLast?.or last, []⟩ := by
  have hgap : gap.Reaches ⟨last, g ++ []⟩ ⟨g.getLast?.or last, []⟩ := reaches_span hg (by simp)
  rw [List.append_nil] at hgap
  exact hgap.sequence ((reaches_stop _).sequence (reaches_nil _))

end Pattern

namespace Ending

/-- The texts that an ending takes for a statement. -/
inductive IsStatement : Ending → Text → Prop
  | returned {value : Text} (hword : ¬value.head?.any isWord) (hvalue : ';' ∉ value) :
      IsStatement returned ("return" ++ value)
  | call {callee mark args : Text} (hcallee : Run isCallee callee)
      (hmark : mark = [] ∨ mark = ("!" : Text)) (hargs : ';' ∉ args) :
      IsStatement call (callee ++ mark ++ "(" ++ args ++ ")")
  | placement {place g operator g' value : Text} {b : Char} (hplace : Run isPlace place)
      (hg : Gap g) (hoperator : operator = [] ∨ ∃ o, isOperator o ∧ operator = [o]) (hg' : Gap g')
      (hb : beginsValue b) (hvalue : ';' ∉ value) :
      IsStatement placement (place ++ g ++ operator ++ "=" ++ g' ++ b :: value)

variable {e : Ending} {x t : Text}

theorem isSpace_of_isCallee {c : Char} (hc : isCallee c) : isSpace c = false := by
  cases hspace : isSpace c with
  | false => rfl
  | true =>
    have hmem : c ∈ ".:".toList := by
      simpa [isCallee, isWord_of_isSpace hspace, oneOf] using hc
    have hink : ".:".toList.all fun d => !isSpace d := by decide
    simpa [hspace] using List.all_eq_true.1 hink c hmem

/-! ### Every match is a statement -/

theorem isStatement_of_reads (he : e ≠ returned) (hx : e.statement.Reads x []) :
    e.IsStatement x := by
  cases e with
  | returned => exact absurd rfl he
  | call =>
    simp (disch := decide) only [statement, reads_sequence_plain (p := chars _), reads_chars,
      reads_sequence_plain (p := optional _), reads_sequence_text,
      reads_sequence_plain (p := many _ _), reads_sequence_nil] at hx
    obtain ⟨callee, _, ⟨hcallee, -⟩, rfl, mark, _, hmark, rfl, _, rfl, args, _, ⟨hargs, -⟩, rfl, _,
      rfl, rfl, -⟩ := hx
    have hmark : mark = [] ∨ mark = ("!" : Text) := hmark.symm.imp And.left And.left
    simpa using IsStatement.call hcallee hmark (not_mem_of_noneOf hargs (by decide))
  | placement =>
    simp (disch := decide) only [statement, reads_sequence_plain (p := chars _), reads_chars,
      reads_sequence_gap, reads_sequence_plain (p := optional _), reads_sequence_text,
      reads_sequence_plain (p := one _), reads_sequence_plain (p := many _ _),
      reads_sequence_nil] at hx
    obtain ⟨place, _, ⟨hplace, -⟩, rfl, g, _, hg, rfl, operator, _, hoperator, rfl, _, rfl,
      g', _, hg', rfl, _, _, ⟨⟨b, hb, rfl⟩, -⟩, rfl, value, _, ⟨hvalue, -⟩, rfl, rfl, -⟩ := hx
    have hoperator : operator = [] ∨ ∃ o, isOperator o ∧ operator = [o] :=
      hoperator.symm.imp And.left And.left
    simpa using IsStatement.placement hplace hg hoperator hg' hb
      (not_mem_of_noneOf hvalue (by decide))

/-- Behind `return` a word ends, so that no other word begins there. -/
theorem isStatement_returned {s : Cursor} {m : Match Field} {g : Text}
    (hm : m ∈ returned.statement.ways s) (hs : s.rest = x ++ g) (hg : m.stop.rest = g) :
    returned.IsStatement x := by
  obtain ⟨a, ha, b, hb, rfl⟩ := mem_ways_seq.1 hm
  obtain ⟨edge, hedge, c, hc, rfl⟩ := mem_ways_seq.1 hb
  obtain ⟨hatEdge, rfl⟩ := mem_ways_edge.1 hedge
  obtain ⟨_, hreturn, rfl, -⟩ := exists_reads_of_mem_ways ha
  obtain ⟨value, hvalue, hreads⟩ := exists_reads_of_mem_ways hc
  rw [reads_sequence_singleton] at hreads
  have hrest : a.stop.rest = value ++ g := hvalue.rest_eq.trans (congrArg (value ++ ·) hg)
  have hx : x = "return" ++ value := by
    have heq := hs.symm.trans (hreturn.rest_eq.trans (congrArg ("return".toList ++ ·) hrest))
    rw [← List.append_assoc] at heq
    exact List.append_cancel_right heq
  have hword : a.stop.rest.head?.any isWord = false := by
    have hbefore : a.stop.before.any isWord = true := by
      rw [hreturn.before_eq]
      rfl
    simpa [Cursor.atEdge, hbefore] using hatEdge
  rw [hx]
  refine .returned ?_ (not_mem_of_noneOf hreads.1 (by decide))
  rw [hrest] at hword
  cases value with
  | nil => simp
  | cons c value => simpa using hword

theorem isStatement_of_mem_ways {m : Match Field} (hm : m ∈ e.form.pattern.ways ⟨none, t⟩) :
    ∃ ind x g, Gap ind ∧ e.IsStatement x ∧ Gap g ∧ t = ind ++ x ++ g := by
  obtain ⟨a, ha, b, hb, rfl⟩ := mem_ways_seq.1 hm
  obtain ⟨c, hc, d, hd, rfl⟩ := mem_ways_seq.1 hb
  obtain ⟨n, hn, rfl⟩ := mem_ways_field.1 hc
  obtain ⟨ind, hind, hreadsInd⟩ := exists_reads_of_mem_ways ha
  obtain ⟨x, hx, hreadsX⟩ := exists_reads_of_mem_ways hn
  obtain ⟨g, hg, hreadsG⟩ := exists_reads_of_mem_ways hd
  have hend : d.stop.rest = [] := rest_eq_nil_of_closesText rfl hd
  have hgap : Gap ind := by
    obtain ⟨_, _, _, hind, rfl, -, rfl, -⟩ :=
      reads_sequence_indent.1 (reads_sequence_singleton.2 hreadsInd)
    rwa [List.append_nil]
  have hgap' : Gap g := by
    obtain ⟨_, _, hg, rfl, hstop⟩ := reads_sequence_gap.1 hreadsG
    obtain ⟨rfl, -⟩ := reads_sequence_stop.1 hstop
    rwa [List.append_nil]
  have hrest : n.stop.rest = g := by
    rw [hg.rest_eq, hend, List.append_nil]
  refine ⟨ind, x, g, hgap, ?_, hgap', ?_⟩
  · by_cases he : e = returned
    · obtain rfl := he
      exact isStatement_returned hn (hx.rest_eq.trans (congrArg (x ++ ·) hrest)) hrest
    · rw [fields_eq_nil_of_reads e.isPlain_statement hreadsX] at hreadsX
      exact isStatement_of_reads he hreadsX
  · rw [List.append_assoc, ← hrest, ← hx.rest_eq]
    exact hind.rest_eq

/-! ### On every statement the pattern gets through -/

theorem IsStatement.head_ink (hx : e.IsStatement x) : ∃ c r, x = c :: r ∧ isSpace c = false := by
  cases hx with
  | returned => exact ⟨'r', _, rfl, by decide⟩
  | call hcallee =>
    obtain ⟨c, callee, rfl⟩ := List.exists_cons_of_ne_nil hcallee.1
    exact ⟨c, _, rfl, isSpace_of_isCallee (hcallee.2 c List.mem_cons_self)⟩
  | placement hplace =>
    obtain ⟨c, place, rfl⟩ := List.exists_cons_of_ne_nil hplace.1
    exact ⟨c, _, rfl, isSpace_of_isPlace (hplace.2 c List.mem_cons_self)⟩

/-- Behind white space that a set does not hold, the set holds no character that stands first. -/
theorem not_head?_gap_append {set : Char → Bool} {g v : Text} (hg : Gap g)
    (hspace : ∀ c, isSpace c → set c = false) (hv : ∀ c ∈ v.head?, set c = false) :
    ∀ c ∈ (g ++ v).head?, set c = false := by
  cases g with
  | nil => exact hv
  | cons d g =>
    rintro c ⟨rfl⟩
    exact hspace d (hg d List.mem_cons_self)

theorem forall_noneOf {c : Char} {u : Text} (hc : c ∉ u) : ∀ d ∈ u, noneOf [c] d := by
  intro d hd
  have hne : d ≠ c := fun h => hc (h ▸ hd)
  simpa [noneOf] using hne

theorem reaches_returned {value g : Text} (hword : ¬value.head?.any isWord)
    (hvalue : ';' ∉ value) (hg : Gap g) (before : Option Char) :
    ∃ last, returned.statement.Reaches ⟨before, "return" ++ value ++ g⟩ ⟨last, g⟩ := by
  have hbehind : (value ++ g).head?.any isWord = false := by
    cases value with
    | nil =>
      cases g with
      | nil => rfl
      | cons c g => exact isWord_of_isSpace (hg c List.mem_cons_self)
    | cons c value => simpa using hword
  have hedge : Cursor.atEdge ⟨some 'n', value ++ g⟩ := by
    rw [Cursor.atEdge, hbehind]
    rfl
  rw [List.append_assoc]
  exact ⟨_, (reaches_text "return" before (value ++ g)).sequence
    ((reaches_edge hedge).sequence
      ((reaches_many (forall_noneOf hvalue)).sequence (reaches_nil _)))⟩

theorem reaches_call {callee mark args g : Text} (hcallee : Run isCallee callee)
    (hmark : mark = [] ∨ mark = ("!" : Text)) (hargs : ';' ∉ args) (before : Option Char) :
    ∃ last, call.statement.Reaches ⟨before, callee ++ mark ++ "(" ++ args ++ ")" ++ g⟩
      ⟨last, g⟩ := by
  have hbehind : ∀ c ∈ (mark ++ ("(" ++ (args ++ (")" ++ g)))).head?, isCallee c = false := by
    rcases hmark with rfl | rfl <;> rintro c ⟨rfl⟩ <;> decide
  have hoptional (last : Option Char) (v : Text) :
      (optional (text "!") : Pattern Field).Reaches ⟨last, mark ++ v⟩
        ⟨mark.getLast?.or last, v⟩ := by
    rcases hmark with rfl | rfl
    · exact (reaches_empty _).alt_right
    · exact (reaches_text "!" last v).alt_left
  simp only [List.append_assoc]
  exact ⟨_, (reaches_chars hcallee hbehind).sequence
    ((hoptional _ _).sequence ((reaches_text "(" _ _).sequence
      ((reaches_many (forall_noneOf hargs)).sequence
        ((reaches_text ")" _ g).sequence (reaches_nil _)))))⟩

theorem reaches_placement {place g₁ operator g₂ value g : Text} {b : Char}
    (hplace : Run isPlace place) (h₁ : Gap g₁)
    (hoperator : operator = [] ∨ ∃ o, isOperator o ∧ operator = [o]) (h₂ : Gap g₂)
    (hb : beginsValue b) (hvalue : ';' ∉ value) (before : Option Char) :
    ∃ last, placement.statement.Reaches
      ⟨before, place ++ g₁ ++ operator ++ "=" ++ g₂ ++ b :: value ++ g⟩ ⟨last, g⟩ := by
  have hsign {set : Char → Bool} (hset : ("-+*/%|&^=" : Text).all fun c => !set c) :
      ∀ c ∈ (operator ++ ("=" ++ (g₂ ++ (b :: value ++ g)))).head?, set c = false := by
    simp only [List.all_eq_true, Bool.not_eq_true'] at hset
    rcases hoperator with rfl | ⟨o, ho, rfl⟩
    · rintro c ⟨rfl⟩
      exact hset '=' (by decide)
    · rintro c ⟨rfl⟩
      refine hset o ?_
      have : o ∈ "-+*/%|&^".toList := by simpa [isOperator, oneOf] using ho
      exact List.mem_append_left ['='] this
  have hspace : ∀ c, isSpace c → isPlace c = false := by
    intro c hc
    cases hplace : isPlace c with
    | false => rfl
    | true => exact hc.symm.trans (isSpace_of_isPlace hplace)
  have hplaceEnd := not_head?_gap_append h₁ hspace (hsign (by decide))
  have hgapEnd : ∀ c ∈ (operator ++ ("=" ++ (g₂ ++ (b :: value ++ g)))).head?, isSpace c = false :=
    hsign (by decide)
  have hvalueEnd : ∀ c ∈ (b :: value ++ g).head?, isSpace c = false := by
    rintro c ⟨rfl⟩
    simp only [beginsValue, Bool.and_eq_true, Bool.not_eq_true'] at hb
    exact hb.2
  have hoptional (last : Option Char) (v : Text) :
      (optional (one isOperator) : Pattern Field).Reaches ⟨last, operator ++ v⟩
        ⟨operator.getLast?.or last, v⟩ := by
    rcases hoperator with rfl | ⟨o, ho, rfl⟩
    · exact (reaches_empty _).alt_right
    · exact (reaches_one ho last v).alt_left
  simp only [List.append_assoc]
  exact ⟨_, (reaches_chars hplace hplaceEnd).sequence
    ((reaches_span h₁ hgapEnd).sequence ((hoptional _ _).sequence
      ((reaches_text "=" _ _).sequence ((reaches_span h₂ hvalueEnd).sequence
        ((reaches_one hb _ (value ++ g)).sequence
          ((reaches_many (forall_noneOf hvalue)).sequence (reaches_nil _)))))))⟩

theorem IsStatement.reaches (hx : e.IsStatement x) {g : Text} (hg : Gap g) (before : Option Char) :
    ∃ last, e.statement.Reaches ⟨before, x ++ g⟩ ⟨last, g⟩ := by
  cases hx with
  | returned hword hvalue => exact reaches_returned hword hvalue hg before
  | call hcallee hmark hargs => exact reaches_call hcallee hmark hargs before
  | placement hplace h₁ hoperator h₂ hb hvalue =>
    exact reaches_placement hplace h₁ hoperator h₂ hb hvalue before

/-- An ending applies to the lines that are a statement between white space, and to no others. -/
theorem isSome_recast?_iff :
    (e.form.recast? t).isSome ↔
      ∃ ind x g, Gap ind ∧ e.IsStatement x ∧ Gap g ∧ t = ind ++ x ++ g := by
  rw [Form.recast?, Option.isSome_map]
  constructor
  · intro h
    obtain ⟨m, hm⟩ := Option.isSome_iff_exists.1 h
    rw [find?_of_opensText e.keepsIndent.opensText] at hm
    exact isStatement_of_mem_ways (mem_ways_of_matchAt? hm)
  · rintro ⟨ind, x, g, hind, hx, hg, rfl⟩
    obtain ⟨last, hstatement⟩ := hx.reaches hg (ind.getLast?.or none)
    have hfirst : ∀ c ∈ (x ++ g).head?, isSpace c = false := by
      obtain ⟨d, r, rfl, hd⟩ := hx.head_ink
      rintro c ⟨rfl⟩
      exact hd
    rw [List.append_assoc]
    exact isSome_find? ((reaches_indent hind hfirst).sequence
      (hstatement.field.sequence (reaches_end hg last)))

end Ending

/-! ### Bindings that go on in the lines below -/

namespace Header

variable {x : Text} {c : Char}

theorem reaches_openBinding {ind name g₁ g₂ value g₃ : Text} (hind : Gap ind)
    (hname : Run isWord name) (h₁ : Gap g₁) (h₂ : Gap g₂)
    (hvalue : value = [] ∨ ∃ b v, value = b :: v ∧ beginsValue b ∧ ∀ d ∈ v, inLine d)
    (hc : oneOf ['[', '(', '{'] c) (h₃ : Gap g₃) :
    ∃ stop, openBinding.form.pattern.Reaches
      ⟨none, ind ++ name ++ g₁ ++ "=" ++ g₂ ++ value ++ c :: g₃⟩ stop := by
  have hword {v : Text} : ∀ d ∈ (name ++ v).head?, isSpace d = false := by
    obtain ⟨d, name, rfl⟩ := List.exists_cons_of_ne_nil hname.1
    rintro _ ⟨rfl⟩
    cases hspace : isSpace d with
    | false => rfl
    | true => exact (hname.2 d List.mem_cons_self).symm.trans (isWord_of_isSpace hspace)
  have hbracket : isSpace c = false := by
    have : ∀ c ∈ ['[', '(', '{'], !isSpace c := List.all_eq_true.1 (by decide)
    simpa using this c (by simpa [oneOf] using hc)
  have hnameEnd {v : Text} : ∀ d ∈ (g₁ ++ ("=" ++ v)).head?, isWord d = false :=
    Ending.not_head?_gap_append h₁ (fun _ => isWord_of_isSpace) (by rintro _ ⟨rfl⟩; decide)
  have hgapEnd {v : Text} : ∀ d ∈ ("=" ++ v : Text).head?, isSpace d = false := by
    rintro _ ⟨rfl⟩
    decide
  have hvalueEnd : ∀ d ∈ (value ++ c :: g₃).head?, isSpace d = false := by
    rcases hvalue with rfl | ⟨b, v, rfl, hb, -⟩
    · rintro _ ⟨rfl⟩
      exact hbracket
    · rintro _ ⟨rfl⟩
      simp only [beginsValue, Bool.and_eq_true, Bool.not_eq_true'] at hb
      exact hb.2
  have hoptional (last : Option Char) :
      (optional (seq (one beginsValue) (many .greedy inLine)) : Pattern Field).Reaches
        ⟨last, value ++ c :: g₃⟩ ⟨value.getLast?.or last, c :: g₃⟩ := by
    rcases hvalue with rfl | ⟨b, v, rfl, hb, hv⟩
    · exact (reaches_empty _).alt_right
    · rw [getLast?_cons_or]
      exact ((reaches_one hb last (v ++ c :: g₃)).seq (reaches_many hv)).alt_left
  simp only [List.append_assoc]
  exact ⟨_, (reaches_indent hind hword).sequence
    ((reaches_chars hname hnameEnd).field.sequence ((reaches_span h₁ hgapEnd).sequence
      ((reaches_text "=" _ _).sequence ((reaches_span h₂ hvalueEnd).sequence
        (((hoptional _).seq (reaches_one hc _ g₃)).field.sequence (reaches_end h₃ _))))))⟩

/-- A binding whose value ends in an opening bracket goes on in the lines below. -/
theorem isSome_openBinding (hx : (binding.form.recast? x).isSome)
    (hlast : (ink x).getLast? = some c) (hc : oneOf ['[', '(', '{'] c) :
    (openBinding.form.recast? x).isSome := by
  rw [Form.recast?, Option.isSome_map] at hx ⊢
  obtain ⟨m, hm⟩ := Option.isSome_iff_exists.1 hx
  obtain ⟨ind, name, g₁, g₂, value, g₃, hind, hname, h₁, h₂, hvalue, h₃, rfl, -⟩ :=
    exists_of_reads_assignment rfl (reads_of_find? binding.isWhole_pattern hm)
  obtain ⟨_, v, ⟨⟨b, hb, rfl⟩, -⟩, rfl, hv, -⟩ := (reads_seq_plain rfl).1 hvalue
  -- The bracket ends the value, but for white space.
  obtain ⟨g, hg, htrim⟩ := trimEnd_spec (b :: v)
  have hink : ink (b :: v) ≠ [] := by
    simp only [beginsValue, Bool.and_eq_true, Bool.not_eq_true'] at hb
    simp [ink_cons, hb.2]
  have hend : (trimEnd (b :: v)).getLast? = some c := by
    rw [getLast?_trimEnd, ← hlast]
    simp only [ink_append, h₃.ink_eq, List.append_nil, List.singleton_append]
    rw [List.getLast?_append_of_ne_nil _ hink]
  obtain ⟨w, hw⟩ := List.getLast?_eq_some_iff.1 hend
  rw [hw, List.append_assoc] at htrim
  have hfirst : w = [] ∨ ∃ b v, w = b :: v ∧ beginsValue b ∧ ∀ d ∈ v, inLine d := by
    cases w with
    | nil => exact .inl rfl
    | cons b' w =>
      obtain ⟨rfl, rfl⟩ := List.cons.inj htrim
      exact .inr ⟨b, w, rfl, hb, fun d hd => hv d (List.mem_append_left _ hd)⟩
  have hgap : Gap (g ++ g₃) := by
    intro d hd
    exact (List.mem_append.1 hd).elim (hg d) (h₃ d)
  obtain ⟨stop, hreaches⟩ := reaches_openBinding hind hname h₁ h₂ hfirst hc hgap
  have heq : ind ++ name ++ g₁ ++ "=" ++ g₂ ++ ([b] ++ v) ++ g₃ =
      ind ++ name ++ g₁ ++ "=" ++ g₂ ++ w ++ c :: (g ++ g₃) := by
    rw [List.singleton_append, htrim]
    simp
  rw [heq]
  exact isSome_find? hreaches

end Header

end Oxidize
