import Oxidize.Proofs.Form.Growth
import Oxidize.Proofs.Line.Quotes
import Oxidize.Proofs.Pattern.Reaches
import Oxidize.Proofs.Text.Follows
import Oxidize.Proofs.Text.Letters

/-!
# String literals that are bound to a name

The cut before a comment respects literals, and so does the header of a binding: up to there an
assignment `name = "..."` keeps its literal. The inline forms are not told where literals are. They
take no dot and no double quote away, except for a form that finds nothing here, and every form that
can find something adds one of these. So the literal is kept exactly if no form finds anything in
the binding (`convert_stringAssignment_iff`).
-/

namespace Oxidize

open Pattern Text

/-- These headers end in a colon or an opening bracket. -/
theorem Header.Turns.getLast?_ink_ne_quote {h : Header} {x y : Text}
    (hh : h ∈ [Header.functionTo, .function, .record, .openBinding]) (hxy : h.Turns x y) :
    (ink x).getLast? ≠ some '"' := by
  cases hxy with
  | functionTo _ _ _ _ _ _ _ _ _ _ hg | function _ _ _ _ _ _ _ hg | record _ _ _ _ _ _ hg =>
    simp +decide [ink_cons, List.getLast?_cons, Gap.ink_eq hg]
  | openBinding _ _ _ _ _ hc hg =>
    rcases hc with rfl | rfl | rfl <;> simp +decide [ink_cons, List.getLast?_cons, Gap.ink_eq hg]
  | binding | forEach | otherwise => simp at hh
  | overRange hi => cases h <;> cases hi <;> simp at hh
  | conditional hkey => cases hkey <;> simp at hh

namespace Line

open Comment

variable {name body : Text}

/-- An assignment of a string literal to a name. -/
def stringAssignment (name body : Text) : Text :=
  name ++ " = \"" ++ body ++ "\""

/-- A binding of a string literal to a name. -/
def stringBinding (name body : Text) : Text :=
  "let " ++ name ++ " = \"" ++ body ++ "\";"

/-- A name of letters and a body that needs no escapes, on one line. -/
structure IsPlainString (name body : Text) : Prop where
  name_ne_nil : name ≠ []
  letters : ∀ c ∈ name, c.isAlpha
  quote : '"' ∉ body
  backslash : '\\' ∉ body
  newline : '\n' ∉ body

theorem IsPlainString.not_mem_name (h : IsPlainString name body) {c : Char}
    (hc : c.isAlpha = false) : c ∉ name :=
  fun hmem => Bool.false_ne_true (hc ▸ h.letters c hmem)

theorem split_stringAssignment (h : IsPlainString name body) :
    Comment.split (stringAssignment name body) = (stringAssignment name body, []) := by
  have hcut : cut .code none (stringAssignment name body) = none := by
    have hafter : Quoting.after isQuote .code (name ++ " = \"") = .literal '"' := by
      have hmarks := marks_of_forall ⟨rfl, rfl⟩ h.letters
      have hbackslash : '\\' ∉ name ++ " = \"" := by simpa using h.not_mem_name rfl
      rw [settled_code.after_eq_after_marks hbackslash, marks_append, hmarks]
      rfl
    rw [stringAssignment, List.append_assoc]
    refine cut_append_eq_none (by simpa using h.not_mem_name rfl) fun before => ?_
    rw [hafter]
    exact cut_literal_eq_none h.quote h.backslash
  rw [Comment.split, hcut]

/-! ### The header -/

theorem getLast?_ink_stringAssignment (name body : Text) :
    (ink (stringAssignment name body)).getLast? = some '"' := by
  simp +decide [stringAssignment, ink_cons, List.getLast?_cons]

/-- The shape of an assignment to a name fits. -/
theorem reaches_stringAssignment (h : IsPlainString name body) :
    ∃ s, Header.binding.form.pattern.Reaches ⟨none, stringAssignment name body⟩ s := by
  obtain ⟨c, r, rfl⟩ := List.exists_cons_of_ne_nil h.name_ne_nil
  obtain ⟨hc, hr⟩ := List.forall_mem_cons.1 h.letters
  have htext : stringAssignment (c :: r) body =
      c :: (r ++ ' ' :: '=' :: ' ' :: '"' :: (body ++ ['"'])) := by
    simp [stringAssignment]
  have hgap (before : Option Char) (t : Text) (ht : ∀ c ∈ t.head?, isSpace c = false) :
      gap.Reaches ⟨before, ' ' :: t⟩ ⟨some ' ', t⟩ :=
    reaches_span (u := [' ']) (by simp; rfl) ht
  have hnothing (before : Option Char) (t : Text) (ht : ∀ c ∈ t.head?, isSpace c = false) :
      gap.Reaches ⟨before, t⟩ ⟨before, t⟩ :=
    reaches_span (u := []) (by simp) ht
  have hword : word.Reaches ⟨none, stringAssignment (c :: r) body⟩
      ⟨r.getLast?.or (some c), ' ' :: '=' :: ' ' :: '"' :: (body ++ ['"'])⟩ := by
    rw [htext]
    exact .seq (reaches_one (isWord_of_isAlpha hc) _ _)
      (reaches_span (fun d hd => isWord_of_isAlpha (hr d hd)) (by simp; rfl))
  have hvalue : (seq (one beginsValue) (many .lazy inLine) : Pattern Field).Reaches
      ⟨some ' ', '"' :: (body ++ ['"'])⟩ ⟨(body ++ ['"']).getLast?.or (some '"'), []⟩ := by
    have hline : ∀ d ∈ body ++ ['"'], inLine d := by
      intro d hd
      have : d ≠ '\n' := by
        rintro rfl
        simp [h.newline] at hd
      simpa [inLine] using this
    have hrest : (many .lazy inLine : Pattern Field).Reaches
        ⟨some '"', (body ++ ['"']) ++ []⟩ ⟨(body ++ ['"']).getLast?.or (some '"'), []⟩ :=
      reaches_many hline
    rw [List.append_nil] at hrest
    exact .seq (reaches_one rfl _ _) hrest
  -- The name begins the line, so that the indent stops where it starts.
  have hindent : indent.Reaches ⟨none, stringAssignment (c :: r) body⟩
      ⟨none, stringAssignment (c :: r) body⟩ := by
    refine .sequence (reaches_start _) (.sequence (hnothing _ _ ?_).field (reaches_nil _))
    simpa [htext] using isSpace_of_isAlpha hc
  exact ⟨_, hindent.sequence (hword.field.sequence ((hgap _ _ (by simp; rfl)).sequence
    ((reaches_char '=' _ _).sequence ((hgap _ _ (by simp; rfl)).sequence
      (hvalue.field.sequence ((hnothing _ _ (by simp)).sequence
        ((reaches_stop _).sequence (reaches_nil _))))))))⟩

/-- Letters and a space are a word and white space in one way only. -/
theorem eq_of_append_eq_letters {ind word g : Text} (hname : name ≠ [])
    (hletters : ∀ c ∈ name, c.isAlpha) (hind : Gap ind) (hword : Run isWord word) (hg : Gap g)
    (h : ind ++ word ++ g = name ++ [' ']) : ind = [] ∧ word = name := by
  have hink : ∀ c ∈ name, isSpace c = false := fun c hc => isSpace_of_isAlpha (hletters c hc)
  have hind : ind = [] := by
    cases ind with
    | nil => rfl
    | cons c ind =>
      obtain ⟨d, r, rfl⟩ := List.exists_cons_of_ne_nil hname
      obtain ⟨rfl, -⟩ := List.cons.inj h
      exact absurd (hind c List.mem_cons_self) (by simp [hink c List.mem_cons_self])
  refine ⟨hind, ?_⟩
  rw [hind, List.nil_append] at h
  rcases g.eq_nil_or_concat with rfl | ⟨g', d, rfl⟩
  · rw [List.append_nil] at h
    exact absurd (h ▸ List.mem_append_right name List.mem_cons_self) (hword.not_mem (c := ' ') rfl)
  · rw [List.concat_eq_append, ← List.append_assoc] at h
    obtain ⟨h, -⟩ := List.append_inj' h rfl
    have hg' : g' = [] := by
      cases g' with
      | nil => rfl
      | cons e g' =>
        have : e ∈ name := by rw [← h]; simp
        exact absurd (hg e (by simp)) (by simp [hink e this])
    rwa [hg', List.append_nil] at h

/-- A space and a literal are white space and a value in one way only. -/
theorem eq_of_append_eq_literal {g value k : Text} {b : Char} (hg : Gap g) (hb : beginsValue b)
    (hk : Gap k) (h : g ++ b :: (value ++ k) = ' ' :: '"' :: (body ++ ['"'])) :
    b = '"' ∧ value = body ++ ['"'] := by
  have hspace : isSpace b = false := by
    simp only [beginsValue, Bool.and_eq_true, Bool.not_eq_true'] at hb
    exact hb.2
  obtain ⟨rfl, hrest⟩ : b = '"' ∧ value ++ k = body ++ ['"'] := by
    rcases g with _ | ⟨c, _ | ⟨d, g⟩⟩
    · obtain ⟨rfl, -⟩ := List.cons.inj h
      cases hspace
    · obtain ⟨-, h⟩ := List.cons.inj h
      exact List.cons.inj h
    · obtain ⟨-, h⟩ := List.cons.inj h
      obtain ⟨rfl, -⟩ := List.cons.inj h
      exact absurd (hg '"' (by simp)) (by decide)
  refine ⟨rfl, ?_⟩
  rcases k.eq_nil_or_concat with rfl | ⟨r, d, rfl⟩
  · rwa [List.append_nil] at hrest
  · rw [List.concat_eq_append, ← List.append_assoc] at hrest
    obtain ⟨-, hd⟩ := List.append_inj' hrest rfl
    obtain rfl : d = '"' := by simpa using hd
    exact absurd (hk '"' (by simp)) (by decide)

/-- A binding of a plain string takes over the name and the literal. -/
theorem eq_stringBinding_of_turns (h : IsPlainString name body) {y : Text}
    (hy : Header.binding.Turns (stringAssignment name body) y) : y = stringBinding name body := by
  generalize hx : stringAssignment name body = x at hy
  cases hy with
  | @binding ind word g₁ g₂ value g₃ b hind hword h₁ h₂ hb h₃ =>
    have hequals : '=' ∉ ind ++ word ++ g₁ := by
      simp only [List.mem_append, not_or]
      exact ⟨⟨hind.not_mem rfl, hword.not_mem rfl⟩, h₁.not_mem rfl⟩
    have hequals' : '=' ∉ name ++ [' '] := by
      simp only [List.mem_append, not_or]
      exact ⟨h.not_mem_name rfl, by decide⟩
    -- The first equals sign of the line is that of the header, whatever the literal holds.
    have hcut : (ind ++ word ++ g₁) ++ '=' :: (g₂ ++ b :: (value ++ g₃)) =
        (name ++ [' ']) ++ '=' :: ' ' :: '"' :: (body ++ ['"']) := by
      simpa [stringAssignment] using hx.symm
    obtain ⟨hfront, hback⟩ := append_cons_inj hequals hequals' hcut
    obtain ⟨rfl, rfl⟩ := eq_of_append_eq_letters h.name_ne_nil h.letters hind hword h₁ hfront
    obtain ⟨rfl, rfl⟩ : b = '"' ∧ value = body ++ ['"'] :=
      eq_of_append_eq_literal h₂ hb h₃ hback
    simp [stringBinding]
  | overRange hi => cases hi
  | conditional hkey => cases hkey

theorem header?_stringAssignment (h : IsPlainString name body) :
    header? (stringAssignment name body) = some (.binding, stringBinding name body) := by
  have others : ∀ k ∈ [Header.functionTo, .function, .record, .openBinding],
      k.form.recast? (stringAssignment name body) = none := by
    intro k hk
    cases hrecast : k.form.recast? (stringAssignment name body) with
    | none => rfl
    | some y =>
      have hturns := Header.turns_of_recasts (Form.recasts_of_recast? k.isWhole_pattern hrecast)
      exact absurd (getLast?_ink_stringAssignment name body) (hturns.getLast?_ink_ne_quote hk)
  have hbinding : Header.binding.form.recast? (stringAssignment name body) =
      some (stringBinding name body) := by
    obtain ⟨s, hs⟩ := reaches_stringAssignment h
    obtain ⟨m, hm⟩ := Option.isSome_iff_exists.1 (isSome_find? hs)
    have hrecast : Header.binding.form.recast? (stringAssignment name body) =
        some (Header.binding.form.expand m) := by
      rw [Form.recast?, hm]
      rfl
    rw [hrecast, eq_stringBinding_of_turns h
      (Header.turns_of_recasts (Form.recasts_of_recast? Header.binding.isWhole_pattern hrecast))]
  simp only [List.forall_mem_cons] at others
  simp [header?, Header.all, others, hbinding]

/-! ### What inline forms find -/

/-- Nowhere in the binding does a literal stand directly behind a call: its one literal stands
behind a space. -/
theorem not_call_of_stringBinding (h : IsPlainString name body) {a w z r : Text} (hw : '"' ∉ w)
    (hne : w ≠ []) (hlast : w.getLast? ≠ some ' ') (hz : '"' ∈ z) :
    stringBinding name body ≠ a ++ (w ++ '"' :: z ++ r) := by
  intro heq
  have hname : '"' ∉ name := h.not_mem_name rfl
  -- The binding holds two quotes only. As the piece holds both, none stands before it.
  have hcount := congrArg (List.count '"') heq
  have hz := List.count_pos_iff.2 hz
  simp [stringBinding, List.count_eq_zero.2 hname, List.count_eq_zero.2 h.quote] at hcount
  have ha : '"' ∉ a := List.count_eq_zero.1 (by omega)
  have hcut : (a ++ w) ++ '"' :: (z ++ r) =
      ("let " ++ name ++ " = ") ++ '"' :: (body ++ ['"', ';']) := by
    simpa [stringBinding] using heq.symm
  have hmem : '"' ∉ a ++ w := by simp [ha, hw]
  obtain ⟨hfront, -⟩ := append_cons_inj hmem (by simp [hname]) hcut
  have := congrArg List.getLast? hfront
  simp [List.getLast?_append, List.getLast?_cons, List.getLast?_eq_some_getLast hne] at this hlast
  exact hlast this

theorem find?_stringBinding_eq_none (h : IsPlainString name body) {i : Inline}
    (hi : i ∉ Inline.growing) : i.form.pattern.find? (stringBinding name body) = none := by
  cases hm : i.form.pattern.find? (stringBinding name body) with
  | none => rfl
  | some m =>
    obtain ⟨a, x, r, heq, hrecasts⟩ := Form.exists_recasts_of_find? hm
    have hturns := Inline.turns_of_recasts hrecasts
    generalize i.form.expand m = y at hturns
    cases hturns with
    | @printFormat format args =>
      have hno := not_call_of_stringBinding h (a := a) (w := "println!(")
        (z := format ++ "\".format(" ++ args ++ "))") (r := r) (by decide) (by decide) (by decide)
        (by simp)
      exact absurd (by simpa using heq) hno
    | @printInterpolated format =>
      have hno := not_call_of_stringBinding h (a := a) (w := "println!(f") (z := format ++ "\"")
        (r := r) (by decide) (by decide) (by decide) (by simp)
      exact absurd (by simpa using heq) hno
    | @interpolated text =>
      have hno := not_call_of_stringBinding h (a := a) (w := "f") (z := text ++ "\"") (r := r)
        (by decide) (by decide) (by decide) (by simp)
      exact absurd (by simpa using heq) hno
    | _ => simp [Inline.growing] at hi

/-! ### The line as a whole -/

theorem convert_stringAssignment (h : IsPlainString name body) :
    convert (stringAssignment name body) = inline (stringBinding name body) := by
  have hblank : (stringAssignment name body).isBlank = false := by
    simp +decide [isBlank, stringAssignment]
  rw [convert_eq, split_stringAssignment h]
  simp [hblank, convertCode, header?_stringAssignment h]

theorem dotsAndQuotes_expressions_le (t : Text) :
    dotsAndQuotes (expressions t) ≤ dotsAndQuotes (inline t) := by
  rw [inline]
  split
  · refine Form.le_recastWith dotsAndQuotes_append ?_ _
    simpa using fun m _ => (Membership.adds_dotsAndQuotes m).keeps
  · exact Nat.le_refl _

/-- A binding that the inline stage leaves as it is holds no place for an inline form. -/
theorem find?_eq_none_of_inline_eq (h : IsPlainString name body)
    (heq : inline (stringBinding name body) = stringBinding name body) (i : Inline) :
    i.form.pattern.find? (stringBinding name body) = none := by
  have hformat : Inline.printFormat.form.pattern.find? (stringBinding name body) = none :=
    find?_stringBinding_eq_none h (by decide)
  -- The first form may take a dot away, but it finds nothing; the others take nothing away.
  have hexpressions : expressions (stringBinding name body) =
      Form.recastWith (Inline.all.tail.map Inline.form) (stringBinding name body) := by
    show Form.recastWith (Inline.all.tail.map Inline.form)
      (Inline.printFormat.form.recastAll (stringBinding name body)) = _
    rw [Form.recastAll_eq_self hformat]
  have hkeeps : ∀ f ∈ Inline.all.tail.map Inline.form, f.Keeps dotsAndQuotes := by
    rw [List.forall_mem_map]
    intro j hj
    exact Inline.keeps_dotsAndQuotes (by rintro rfl; revert hj; decide)
  have hadds : ∀ f ∈ Inline.all.tail.map Inline.form,
      f.Adds dotsAndQuotes ∨ f.pattern.find? (stringBinding name body) = none := by
    rw [List.forall_mem_map]
    intro j _
    by_cases hj : j ∈ Inline.growing
    · exact .inl (Inline.adds_dotsAndQuotes hj)
    · exact .inr (find?_stringBinding_eq_none h hj)
  have hle := dotsAndQuotes_expressions_le (stringBinding name body)
  rw [heq, hexpressions] at hle
  have hothers := Form.find?_eq_none_of_le dotsAndQuotes_append hkeeps hadds hle
  rcases List.mem_cons.1 i.mem_all with rfl | hi
  · exact hformat
  · exact hothers _ (List.mem_map_of_mem hi)

/-- The inline stage leaves a binding as it is only if no form finds anything in it. -/
theorem inline_stringBinding_iff (h : IsPlainString name body) :
    inline (stringBinding name body) = stringBinding name body ↔
      (∀ i : Inline, i.form.pattern.find? (stringBinding name body) = none) ∧
        ∀ m : Membership, m.form.pattern.find? (stringBinding name body) = none := by
  have hmemberships (hi : ∀ i : Inline, i.form.pattern.find? (stringBinding name body) = none) :
      inline (stringBinding name body) = memberships (stringBinding name body) := by
    have hexpressions : expressions (stringBinding name body) = stringBinding name body := by
      refine Form.recastWith_eq_self ?_
      simpa using fun i _ => hi i
    rw [inline, hexpressions]
    rfl
  constructor
  · intro heq
    -- Without expressions to recast, the membership forms see the binding itself.
    have hi := find?_eq_none_of_inline_eq h heq
    refine ⟨hi, fun m => ?_⟩
    rw [hmemberships hi, memberships] at heq
    have hadds : ∀ f ∈ Membership.all.map Membership.form, f.Adds dotsAndQuotes :=
      List.forall_mem_map.2 fun m _ => m.adds_dotsAndQuotes
    exact Form.find?_eq_none_of_le dotsAndQuotes_append (fun f hf => (hadds f hf).keeps)
      (fun f hf => .inl (hadds f hf)) (Nat.le_of_eq (congrArg dotsAndQuotes heq)) _
      (List.mem_map_of_mem m.mem_all)
  · rintro ⟨hi, hm⟩
    rw [hmemberships hi]
    refine Form.recastWith_eq_self ?_
    simpa using fun m _ => hm m

/-- The literal of an assignment is taken over unchanged exactly if no form finds anything in the
binding: the forms are not told where literals are. -/
theorem convert_stringAssignment_iff (h : IsPlainString name body) :
    convert (stringAssignment name body) = stringBinding name body ↔
      (∀ i : Inline, i.form.pattern.find? (stringBinding name body) = none) ∧
        ∀ m : Membership, m.form.pattern.find? (stringBinding name body) = none := by
  rw [convert_stringAssignment h, inline_stringBinding_iff h]

/-- Comment marks in a literal change nothing. -/
theorem convert_stringAssignment_marks :
    IsPlainString "label" "a // b" ∧
      convert (stringAssignment "label" "a // b") = stringBinding "label" "a // b" := by
  have hplain : IsPlainString "label" "a // b" :=
    ⟨by decide, List.all_eq_true.1 (by decide), by decide, by decide, by decide⟩
  refine ⟨hplain, (convert_stringAssignment_iff hplain).2 ⟨fun i => ?_, fun m => ?_⟩⟩
  · cases i <;> decide +kernel
  · cases m <;> decide +kernel

/-- A literal that mentions a call of `len` is altered. -/
theorem convert_stringAssignment_call :
    IsPlainString "label" "Item // len(xs)" ∧
      convert (stringAssignment "label" "Item // len(xs)") =
        stringBinding "label" "Item // xs.len()" ∧
      convert (stringAssignment "label" "Item // len(xs)") ≠
        stringBinding "label" "Item // len(xs)" := by
  have hplain : IsPlainString "label" "Item // len(xs)" :=
    ⟨by decide, List.all_eq_true.1 (by decide), by decide, by decide, by decide⟩
  refine ⟨hplain, ?_, ?_⟩ <;> decide +kernel

end Line

end Oxidize
