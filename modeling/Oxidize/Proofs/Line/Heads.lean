import Oxidize.Proofs.Comment.Split
import Oxidize.Proofs.Form.Growth
import Oxidize.Proofs.Form.Statements
import Oxidize.Proofs.Form.Tests
import Oxidize.Proofs.Line.Stages
import Oxidize.Proofs.Text.Follows

/-!
# Lines with one header

Which header a line has, for the heads of branches and loops with a condition and for assignments of
words. A header is the first one of a line if the line fits it and fits no other
(`header?_eq_some`). The first character tells the heads without parentheses and equals signs apart
(`Header.Turns.exists_initial`), and it is a single one for each of them (`Header.initial?_inj`).
-/

namespace Oxidize

open Pattern Text

namespace Header

variable {h k : Header} {x y : Text}

/-- The first character of the lines that a header fits, if it needs neither a parenthesis nor an
equals sign. -/
def initial? : Header → Option Char
  | record => some 's'
  | forEach => some 'f'
  | whileLoop => some 'w'
  | elseIf => some '\x7d'
  | ifBranch => some 'i'
  | otherwise => some 'e'
  | _ => none

theorem initial?_inj {c : Char} (hc : h.initial? = some c) (hc' : k.initial? = some c) : h = k := by
  cases h <;> cases hc <;> cases k <;> cases hc' <;> rfl

theorem Turns.exists_initial (hxy : h.Turns x y) (hparenthesis : '(' ∉ x) (hequals : '=' ∉ x) :
    ∃ c, h.initial? = some c ∧ (ink x).head? = some c := by
  have gaps : ∀ {g}, Gap g → ink g = [] := Gap.ink_eq
  cases hxy with
  | functionTo | function => simp at hparenthesis
  | openBinding | binding => simp at hequals
  | overRange hi _ _ _ _ _ hcall =>
    cases h <;> cases hi <;> cases hcall <;> simp at hparenthesis
  | record hind | forEach hind | otherwise hind =>
    exact ⟨_, rfl, by simp +decide [ink_cons, gaps hind]⟩
  | conditional hkey hind =>
    cases hkey <;> exact ⟨_, rfl, by simp +decide [ink_cons, gaps hind]⟩

/-- All headers but the one of closed bindings end in a colon or an opening bracket. -/
theorem Turns.colon_or_bracket (hxy : h.Turns x y) (hne : h ≠ .binding) :
    ':' ∈ x ∨ '[' ∈ x ∨ '(' ∈ x ∨ '{' ∈ x := by
  cases hxy with
  | openBinding _ _ _ _ _ hc => rcases hc with rfl | rfl | rfl <;> simp
  | binding => exact absurd rfl hne
  | _ => exact .inl (by simp)

end Header

/-- All inline forms hold a parenthesis or a double quote. -/
theorem Inline.find?_eq_none {t : Text} (hparenthesis : '(' ∉ t) (hquote : '"' ∉ t) (i : Inline) :
    i.form.pattern.find? t = none := by
  cases hm : i.form.pattern.find? t with
  | none => rfl
  | some m =>
    obtain ⟨a, x, r, rfl, hrecasts⟩ := Form.exists_recasts_of_find? hm
    simp only [List.mem_append, not_or] at hparenthesis hquote
    have hturns := turns_of_recasts hrecasts
    generalize i.form.expand m = y at hturns
    cases hturns <;> simp at hparenthesis hquote

namespace Line

variable {h : Header} {code t : Text}

theorem expressions_eq_self (hparenthesis : '(' ∉ t) (hquote : '"' ∉ t) : expressions t = t :=
  Form.recastWith_eq_self
    (List.forall_mem_map.2 fun i _ => i.find?_eq_none hparenthesis hquote)

/-- A condition or a binding without calls and literals is left to the membership tests. -/
theorem inline_eq_memberships (hparenthesis : '(' ∉ t) (hquote : '"' ∉ t)
    (hcondition : isCondition t.trimStart) : inline t = memberships t := by
  simp only [inline, expressions_eq_self hparenthesis hquote]
  rw [if_pos (by simp [hcondition, isLoop_of_isCondition hcondition])]

/-- The two passes of membership tests, one after the other. -/
theorem memberships_eq {u v : Text} (habsent : Membership.absent.Makes t u)
    (hpresent : Membership.present.Makes u v) : memberships t = v := by
  have hpasses : memberships t =
      Membership.present.form.recastAll (Membership.absent.form.recastAll t) := rfl
  rw [hpasses, Form.recastAll, Form.recastAll, Pattern.replaceAll, Pattern.replaceAll,
    habsent, hpresent]

/-- A line with a header and without a comment. -/
theorem convert_of_header? (hslash : '/' ∉ code) (hh : header? code = some (h, t)) :
    convert code = inline t := by
  have hsplit : Comment.split code = (code, []) := by
    rw [Comment.split, Comment.cut_eq_none_of_not_mem hslash]
  have hblank : ¬ code.isBlank := by
    intro hblank
    rw [header?_of_gap (isBlank_iff_gap.1 hblank)] at hh
    cases hh
  rw [convert_eq, hsplit, if_neg hblank, convertCode, hh, List.append_nil]

/-- The header of a line that fits it and no other, with what it makes of the line. -/
theorem header?_eq_some (hfits : ∃ s, h.form.pattern.Reaches ⟨none, code⟩ s)
    (honly : ∀ k u, k.Turns code u → k = h ∧ u = t) : header? code = some (h, t) := by
  have hrecast : (h.form.recast? code).isSome := by
    obtain ⟨s, hs⟩ := hfits
    rw [Form.recast?, Option.isSome_map]
    exact isSome_find? hs
  have hfound : (header? code).isSome := by
    rw [header?, List.findSome?_isSome_iff]
    exact ⟨h, h.mem_all, by simpa using hrecast⟩
  obtain ⟨⟨k, u⟩, hku⟩ := Option.isSome_iff_exists.1 hfound
  obtain ⟨rfl, rfl⟩ := honly k u (turns_of_header? hku)
  exact hku

/-- A head without parentheses and equals signs has the header that its first character tells. -/
theorem header?_eq_some_of_initial {c : Char} (hparenthesis : '(' ∉ code) (hequals : '=' ∉ code)
    (hinitial : h.initial? = some c) (hhead : (ink code).head? = some c)
    (hfits : ∃ s, h.form.pattern.Reaches ⟨none, code⟩ s) (hturns : ∀ u, h.Turns code u → u = t) :
    header? code = some (h, t) := by
  refine header?_eq_some hfits fun k u hu => ?_
  obtain ⟨d, hk, hd⟩ := hu.exists_initial hparenthesis hequals
  obtain rfl : c = d := by simpa [hhead] using hd
  obtain rfl := Header.initial?_inj hk hinitial
  exact ⟨rfl, hturns u hu⟩

end Line

/-! ### Heads with a condition -/

/-- The words that stand in front of a condition. -/
inductive Guard
  | whileLoop
  | elseIf
  | ifBranch
  deriving DecidableEq

namespace Guard

/-- The words as they are written. -/
def keyword : Guard → Text
  | whileLoop => "while"
  | elseIf => "\x7d else if"
  | ifBranch => "if"

/-- The header of the lines that begin with these words. -/
def header : Guard → Header
  | whileLoop => .whileLoop
  | elseIf => .elseIf
  | ifBranch => .ifBranch

/-- A line that begins with these words. -/
def line (g : Guard) (condition : Text) : Text :=
  g.keyword ++ " " ++ condition ++ ":"

/-- The head of a block that begins with these words. -/
def opening (g : Guard) (condition : Text) : Text :=
  g.keyword ++ " " ++ condition ++ " \x7b"

end Guard

/-- A condition on one line, without white space around it and without the characters by which other
headers are told. -/
structure IsCondition (t : Text) : Prop where
  ne_nil : t ≠ []
  newline : '\n' ∉ t
  parenthesis : '(' ∉ t
  equals : '=' ∉ t
  head : ∀ c ∈ t.head?, isSpace c = false
  last : ∀ c ∈ t.getLast?, isSpace c = false

namespace Guard

variable {g : Guard} {condition : Text}

/-- The pattern of the words gets through them. -/
theorem reaches_keyword (g : Guard) :
    ∃ words, g.header.pattern = Header.conditional words ∧
      ∀ before v, ∃ last, words.Reaches ⟨before, g.keyword ++ v⟩ ⟨last, v⟩ := by
  have hspace (before : Option Char) (v : Text) (hv : ∀ c ∈ v.head?, isSpace c = false) :
      gap.Reaches ⟨before, [' '] ++ v⟩ ⟨some ' ', v⟩ :=
    reaches_span (by decide) hv
  have hspaces (before : Option Char) (v : Text) (hv : ∀ c ∈ v.head?, isSpace c = false) :
      space.Reaches ⟨before, [' '] ++ v⟩ ⟨some ' ', v⟩ :=
    reaches_chars (by decide) hv
  cases g with
  | whileLoop => exact ⟨_, rfl, fun before v => ⟨_, reaches_text "while" before v⟩⟩
  | ifBranch => exact ⟨_, rfl, fun before v => ⟨_, reaches_text "if" before v⟩⟩
  | elseIf =>
    refine ⟨_, rfl, fun before v => ?_⟩
    exact ⟨_, (reaches_text "\x7d" before (" else if" ++ v)).sequence
      ((hspace _ ("else if" ++ v) (by rintro _ ⟨rfl⟩; rfl)).sequence
        ((reaches_text "else" _ (" if" ++ v)).sequence
          ((hspaces _ ("if" ++ v) (by rintro _ ⟨rfl⟩; rfl)).sequence
            ((reaches_text "if" _ v).sequence (reaches_nil _)))))⟩

theorem reaches_line (hcondition : IsCondition condition) :
    ∃ s, g.header.form.pattern.Reaches ⟨none, g.line condition⟩ s := by
  obtain ⟨words, hpattern, hwords⟩ := reaches_keyword g
  obtain ⟨last, hwords⟩ := hwords none (" " ++ condition ++ ":")
  obtain ⟨c, r, rfl⟩ := List.exists_cons_of_ne_nil hcondition.ne_nil
  have hinLine : ∀ d ∈ c :: r, inLine d := by
    intro d hd
    have hne : d ≠ '\n' := by
      rintro rfl
      exact hcondition.newline hd
    simpa [inLine] using hne
  obtain ⟨hc, hr⟩ := List.forall_mem_cons.1 hinLine
  have hindent : indent.Reaches ⟨none, [] ++ g.line (c :: r)⟩ ⟨none, g.line (c :: r)⟩ :=
    reaches_indent gap_nil (by cases g <;> rintro _ ⟨rfl⟩ <;> rfl)
  have hspace : (oneOrMore .greedy isSpace : Pattern Field).Reaches
      ⟨last, ' ' :: (c :: (r ++ [':']))⟩ ⟨some ' ', c :: (r ++ [':'])⟩ :=
    (reaches_one rfl last _).seq (reaches_many (u := []) (by simp))
  have hbody : (oneOrMore .lazy inLine : Pattern Field).Reaches
      ⟨some ' ', c :: (r ++ [':'])⟩ ⟨r.getLast?.or (some c), [':']⟩ :=
    (reaches_one hc _ _).seq (reaches_many hr)
  have hcolon : colonEnd.Reaches ⟨r.getLast?.or (some c), [] ++ [':']⟩ ⟨some ':', []⟩ :=
    (reaches_span (by simp) (by rintro _ ⟨rfl⟩; rfl)).sequence
      ((reaches_char ':' _ []).sequence
        ((reaches_span (u := []) (v := []) (by simp) (by simp)).sequence
          ((reaches_stop _).sequence (reaches_nil _))))
  have hline : g.line (c :: r) = g.keyword ++ (" " ++ (c :: r) ++ ":") := by
    simp [line]
  rw [Header.form, hpattern]
  rw [hline] at hindent ⊢
  exact ⟨_, hindent.sequence (hwords.sequence (hspace.sequence (hbody.field.sequence
    (hcolon.sequence (reaches_nil _)))))⟩

/-- A space and the text behind it are cut in one way only. -/
theorem space_append_inj {s v v' : Text} (hs : Run isSpace s) (hv : ∀ c ∈ v'.head?, isSpace c = false)
    (h : s ++ v = " " ++ v') : s = " " ∧ v = v' := by
  obtain ⟨c, s, rfl⟩ := List.exists_cons_of_ne_nil hs.1
  obtain ⟨rfl, hrest⟩ := List.cons.inj h
  have hgap : Gap s := (List.forall_mem_cons.1 hs.2).2
  have hrest : s ++ v = v' := hrest
  obtain rfl := hgap.eq_nil_of_head (t := v) (hrest ▸ hv)
  exact ⟨rfl, hrest⟩

theorem keyword_append_inj {key key' s v v' : Text} (hkey : g.header.Keyword key key')
    (hs : Run isSpace s) (hv : ∀ c ∈ v'.head?, isSpace c = false)
    (h : key ++ (s ++ v) = g.keyword ++ (" " ++ v')) : key' = g.keyword ++ " " ∧ v = v' := by
  cases g with
  | whileLoop =>
    cases hkey
    exact ⟨rfl, (space_append_inj hs hv (List.append_cancel_left h)).2⟩
  | ifBranch =>
    cases hkey
    exact ⟨rfl, (space_append_inj hs hv (List.append_cancel_left h)).2⟩
  | elseIf =>
    cases hkey with
    | @elseIf g s' hg hs' =>
      have hink {r : Text} : ∀ c ∈ ("else" ++ r : Text).head?, isSpace c = false := by
        rintro _ ⟨rfl⟩
        rfl
      have hif {r : Text} : ∀ c ∈ ("if" ++ r : Text).head?, isSpace c = false := by
        rintro _ ⟨rfl⟩
        rfl
      have hcut : g ++ ("else" ++ (s' ++ ("if" ++ (s ++ v)))) =
          " " ++ ("else" ++ (" " ++ ("if" ++ (" " ++ v')))) := by
        have hwords : elseIf.keyword = "\x7d" ++ (" " ++ ("else" ++ (" " ++ "if"))) := rfl
        rw [hwords] at h
        simpa only [List.append_assoc, List.append_cancel_left_eq] using h
      have hspace : ∀ c ∈ (" " : Text), isSpace c := by decide
      obtain ⟨-, hcut⟩ := run_append_inj hg hspace hink hink hcut
      obtain ⟨-, hcut⟩ := space_append_inj hs' hif (List.append_cancel_left hcut)
      exact ⟨rfl, (space_append_inj hs hv (List.append_cancel_left hcut)).2⟩

/-- What the header makes of such a line. -/
theorem eq_opening_of_turns (hcondition : IsCondition condition) {u : Text}
    (hu : g.header.Turns (g.line condition) u) : u = g.opening condition := by
  have hhead : ∀ c ∈ (g.line condition).head?, isSpace c = false := by
    cases g <;> rintro _ ⟨rfl⟩ <;> rfl
  have hlast : ∀ c ∈ (g.line condition).getLast?, isSpace c = false := by
    rw [line, List.getLast?_append]
    rintro _ ⟨rfl⟩
    rfl
  have hheader : g.header ∈ [Header.whileLoop, .elseIf, .ifBranch] := by cases g <;> decide
  generalize hx : g.line condition = x at hu hhead hlast
  generalize hh : g.header = h at hu hheader
  cases hu with
  | @conditional h ind key key' s condition' g₁ g₂ hkey hind hs hcondition' h₁ h₂ =>
    obtain rfl := hind.eq_nil_of_head (t := key ++ s ++ condition' ++ g₁ ++ ":" ++ g₂)
      (by simpa using hhead)
    obtain rfl := h₂.eq_nil_of_last hlast
    have hcut : g.keyword ++ (" " ++ condition) = key ++ (s ++ (condition' ++ g₁)) := by
      refine (List.append_left_inj [':']).1 ?_
      simpa [line] using hx
    obtain rfl := h₁.eq_nil_of_last (t := key ++ (s ++ condition')) (by
      have hend : (g.keyword ++ (" " ++ condition)).getLast? = condition.getLast? := by
        rw [List.getLast?_append, List.getLast?_append_of_ne_nil _ hcondition.ne_nil,
          List.getLast?_eq_some_getLast hcondition.ne_nil, Option.some_or]
      rw [List.append_assoc, List.append_assoc, ← hcut, hend]
      exact hcondition.last)
    obtain ⟨rfl, rfl⟩ := keyword_append_inj (hh ▸ hkey) hs hcondition.head (by simpa using hcut.symm)
    simp [opening]
  | overRange hi => cases h <;> cases hi <;> simp at hheader
  | _ => simp at hheader

theorem head?_ink_line (g : Guard) (condition : Text) :
    (ink (g.line condition)).head? = g.header.initial? := by
  cases g <;> rfl

theorem header?_line (hcondition : IsCondition condition) :
    Line.header? (g.line condition) = some (g.header, g.opening condition) := by
  obtain ⟨c, hc⟩ : ∃ c, g.header.initial? = some c := by cases g <;> exact ⟨_, rfl⟩
  have hkeyword : '(' ∉ g.keyword ∧ '=' ∉ g.keyword := by cases g <;> decide
  exact Line.header?_eq_some_of_initial (by simp [line, hkeyword.1, hcondition.parenthesis])
    (by simp [line, hkeyword.2, hcondition.equals]) hc ((head?_ink_line g condition).trans hc)
    (reaches_line hcondition) fun u => eq_opening_of_turns hcondition

/-- A line with a condition that holds no call and no literal. -/
theorem convert_line (hcondition : IsCondition condition) (hslash : '/' ∉ condition)
    (hquote : '"' ∉ condition) :
    Line.convert (g.line condition) = Line.memberships (g.opening condition) := by
  have hkeyword : '/' ∉ g.keyword ∧ '(' ∉ g.keyword ∧ '"' ∉ g.keyword := by cases g <;> decide
  have hopening : Line.isCondition (g.opening condition).trimStart := by cases g <;> rfl
  rw [Line.convert_of_header? (by simp [line, hkeyword.1, hslash]) (header?_line hcondition)]
  exact Line.inline_eq_memberships (by simp [opening, hkeyword.2.1, hcondition.parenthesis])
    (by simp [opening, hkeyword.2.2, hquote]) hopening

/-- The words in front of a condition are kept if no test goes on behind them. -/
theorem makes_keyword {m : Membership} {t t' : Text} (hno : ¬ m.GoesOn (' ' :: t)) (h : m.Makes t t') :
    m.Makes (g.keyword ++ " " ++ t) (g.keyword ++ " " ++ t') := by
  have hkept (word : Text) {t t' : Text} (hword : ∀ c ∈ word, isPlace c) (hno : ¬ m.GoesOn (' ' :: t))
      (h : m.Makes t t') : m.Makes (word ++ ' ' :: t) (word ++ ' ' :: t') :=
    .place hword (by rintro _ ⟨rfl⟩; rfl) hno (.other rfl h)
  have hsplit (t : Text) : g.keyword ++ " " ++ t = g.keyword ++ ' ' :: t := by simp
  rw [hsplit, hsplit]
  cases g with
  | whileLoop => exact hkept "while" (by decide) hno h
  | ifBranch => exact hkept "if" (by decide) hno h
  | elseIf =>
    have hif : Run isInk "if" := by decide
    have hne : "if".toList ≠ m.word := by cases m <;> decide
    have helse : ¬ m.GoesOn (' ' :: ("if" ++ ' ' :: t)) :=
      Membership.not_goesOn_of_ne hif (by rintro _ ⟨rfl⟩; rfl) hne
    exact .other rfl (.other rfl (hkept "else" (by decide) helse
      (hkept "if" (by decide) hno h)))

end Guard

/-! ### Assignments of words -/

namespace Line

variable {name value : Text}

/-- An assignment of a word to a name. -/
def wordAssignment (name value : Text) : Text :=
  name ++ " = " ++ value

/-- A binding of a word to a name. -/
def wordBinding (name value : Text) : Text :=
  "let " ++ name ++ " = " ++ value ++ ";"

theorem isSpace_of_isWord {c : Char} (hc : isWord c) : isSpace c = false := by
  cases hspace : isSpace c with
  | false => rfl
  | true => exact hc.symm.trans (isWord_of_isSpace hspace)

theorem reaches_wordAssignment (hname : Run isWord name) (hvalue : Run isWord value) :
    ∃ s, Header.binding.form.pattern.Reaches ⟨none, wordAssignment name value⟩ s := by
  obtain ⟨c, r, rfl⟩ := List.exists_cons_of_ne_nil hvalue.1
  obtain ⟨hc, hr⟩ := List.forall_mem_cons.1 hvalue.2
  have hword {v : Text} : ∀ d ∈ (name ++ v).head?, isSpace d = false :=
    fun d hd => isSpace_of_isWord (hname.set_of_head? v d hd)
  have hbegins : beginsValue c := by
    have hne : c ≠ '=' := by
      rintro rfl
      cases hc
    simp [beginsValue, hne, isSpace_of_isWord hc]
  have hline : ∀ d ∈ r, inLine d := by
    intro d hd
    have hne : d ≠ '\n' := by
      rintro rfl
      cases hr _ hd
    simpa [inLine] using hne
  have hgap {before : Option Char} {v : Text} (hv : ∀ d ∈ v.head?, isSpace d = false) :
      gap.Reaches ⟨before, [' '] ++ v⟩ ⟨some ' ', v⟩ :=
    reaches_span (by decide) hv
  have hbody {before : Option Char} :
      (seq (one beginsValue) (many .lazy inLine) : Pattern Field).Reaches
        ⟨before, c :: (r ++ [])⟩ ⟨r.getLast?.or (some c), []⟩ :=
    (reaches_one hbegins before _).seq (reaches_many hline)
  have hsplit : wordAssignment name (c :: r) =
      [] ++ (name ++ ([' '] ++ (['='] ++ ([' '] ++ (c :: (r ++ [])))))) := by
    simp [wordAssignment]
  rw [hsplit]
  exact ⟨_, (reaches_indent gap_nil hword).sequence
    ((reaches_chars hname (by rintro _ ⟨rfl⟩; rfl)).field.sequence
      ((hgap (by rintro _ ⟨rfl⟩; rfl)).sequence ((reaches_text "=" _ _).sequence
        ((hgap (by rintro _ ⟨rfl⟩; exact isSpace_of_isWord hc)).sequence
          (hbody.field.sequence (reaches_end gap_nil _))))))⟩

theorem eq_wordBinding_of_turns (hname : Run isWord name) (hvalue : Run isWord value) {u : Text}
    (hu : Header.binding.Turns (wordAssignment name value) u) : u = wordBinding name value := by
  generalize hx : wordAssignment name value = x at hu
  cases hu with
  | @binding ind word g₁ g₂ value' g₃ b hind hword h₁ h₂ hb h₃ =>
    have hfront : '=' ∉ ind ++ word ++ g₁ := by
      simp [hind.not_mem (c := '=') rfl, hword.not_mem (c := '=') rfl, h₁.not_mem (c := '=') rfl]
    have hfront' : '=' ∉ name ++ [' '] := by
      simp [hname.not_mem (c := '=') rfl]
    have hcut : (name ++ [' ']) ++ '=' :: (" " ++ value) =
        (ind ++ word ++ g₁) ++ '=' :: (g₂ ++ (b :: value' ++ g₃)) := by
      simpa [wordAssignment] using hx
    obtain ⟨hname', hvalue'⟩ := append_cons_inj hfront' hfront hcut
    obtain rfl := hind.eq_nil_of_head (t := word ++ g₁) (by
      rw [← List.append_assoc, ← hname']
      exact fun d hd => isSpace_of_isWord (hname.set_of_head? [' '] d hd))
    have hgap : ∀ c ∈ g₁.head?, isWord c = false :=
      fun c hc => isWord_of_isSpace (h₁ c (List.mem_of_mem_head? hc))
    obtain ⟨rfl, -⟩ := run_append_inj hname.2 hword.2 (by rintro _ ⟨rfl⟩; rfl) hgap hname'
    have hbegins : isSpace b = false := by
      simp only [beginsValue, Bool.and_eq_true, Bool.not_eq_true'] at hb
      exact hb.2
    have hspace : ∀ c ∈ (" " : Text), isSpace c := by decide
    have hhead : ∀ c ∈ value.head?, isSpace c = false := fun c hc =>
      isSpace_of_isWord (hvalue.2 c (List.mem_of_mem_head? hc))
    obtain ⟨-, hvalue'⟩ := run_append_inj hspace h₂ hhead (by rintro _ ⟨rfl⟩; exact hbegins) hvalue'
    obtain rfl := h₃.eq_nil_of_last (t := b :: value') (by
      rw [← hvalue']
      exact fun d hd => isSpace_of_isWord (hvalue.2 d (List.mem_of_getLast? hd)))
    rw [hvalue', wordBinding, List.append_nil]
    simp
  | overRange hi => cases hi
  | conditional hkey => cases hkey

theorem header?_wordAssignment (hname : Run isWord name) (hvalue : Run isWord value) :
    header? (wordAssignment name value) = some (.binding, wordBinding name value) := by
  refine header?_eq_some (reaches_wordAssignment hname hvalue) fun k u hu => ?_
  have hno {c : Char} (hc : isWord c = false) (hne : c ∉ (" = " : Text)) :
      c ∉ wordAssignment name value := by
    simp only [wordAssignment, List.mem_append, not_or]
    exact ⟨⟨hname.not_mem hc, hne⟩, hvalue.not_mem hc⟩
  by_cases hk : k = .binding
  · obtain rfl := hk
    exact ⟨rfl, eq_wordBinding_of_turns hname hvalue hu⟩
  · rcases hu.colon_or_bracket hk with h | h | h | h
    · exact absurd h (hno rfl (by decide))
    · exact absurd h (hno rfl (by decide))
    · exact absurd h (hno rfl (by decide))
    · exact absurd h (hno rfl (by decide))

theorem convert_wordAssignment (hname : Run isWord name) (hvalue : Run isWord value) :
    convert (wordAssignment name value) = memberships (wordBinding name value) := by
  have hno {c : Char} (hc : isWord c = false) : c ∉ name ∧ c ∉ value :=
    ⟨hname.not_mem hc, hvalue.not_mem hc⟩
  rw [convert_of_header? (by simp [wordAssignment, hno (c := '/') rfl])
    (header?_wordAssignment hname hvalue)]
  exact inline_eq_memberships (by simp [wordBinding, hno (c := '(') rfl])
    (by simp [wordBinding, hno (c := '"') rfl]) rfl

end Line

end Oxidize
