import Oxidize.Form.Header
import Oxidize.Proofs.Form.Inline

/-!
# Headers as rules on texts

`Header.Turns h x y` lists the lines `x` that have the shape of a header and what they become. The
three loops over ranges share a constructor, since their ranges are those of the inline forms
(`range?`), and so do the three heads with a condition (`Keyword`).
-/

namespace Oxidize

open Pattern Text

namespace Header

/-- The range that a loop runs over. -/
def range? : Header → Option Inline
  | rangeStep => some .rangeStep
  | rangeBetween => some .rangeBetween
  | rangeTo => some .rangeTo
  | _ => none

/-- The keyword of a head with a condition and what it becomes. -/
inductive Keyword : Header → Text → Text → Prop
  | whileLoop : Keyword whileLoop "while" "while "
  | elseIf {g s : Text} (hg : Gap g) (hs : Run isSpace s) :
      Keyword elseIf ("\x7d" ++ g ++ "else" ++ s ++ "if") "\x7d else if "
  | ifBranch : Keyword ifBranch "if" "if "

/-- What each header makes of a line. -/
inductive Turns : Header → Text → Text → Prop
  | functionTo {ind key s name g₁ params g₂ g₃ result g₄ g₅ : Text} (hind : Gap ind)
      (hkey : key = ("def" : Text) ∨ key = ("fn" : Text)) (hs : Run isSpace s)
      (hname : Run isWord name) (h₁ : Gap g₁) (hparams : ')' ∉ params) (h₂ : Gap g₂) (h₃ : Gap g₃)
      (hresult : result ≠ [] ∧ ':' ∉ result) (h₄ : Gap g₄) (h₅ : Gap g₅) :
      Turns functionTo
        (ind ++ key ++ s ++ name ++ g₁ ++ "(" ++ params ++ ")" ++ g₂ ++ "->" ++ g₃ ++ result ++ g₄
          ++ ":" ++ g₅)
        (ind ++ "fn " ++ name ++ "(" ++ params ++ ") -> " ++ result ++ " \x7b")
  | function {ind key s name g₁ params g₂ g₃ : Text} (hind : Gap ind)
      (hkey : key = ("def" : Text) ∨ key = ("fn" : Text)) (hs : Run isSpace s)
      (hname : Run isWord name) (h₁ : Gap g₁) (hparams : ')' ∉ params) (h₂ : Gap g₂) (h₃ : Gap g₃) :
      Turns function
        (ind ++ key ++ s ++ name ++ g₁ ++ "(" ++ params ++ ")" ++ g₂ ++ ":" ++ g₃)
        (ind ++ "fn " ++ name ++ "(" ++ params ++ ") \x7b")
  | record {ind s name g₁ bases g₂ g₃ : Text} (hind : Gap ind) (hs : Run isSpace s)
      (hname : Run isWord name) (h₁ : Gap g₁)
      (hbases : bases = [] ∨ ∃ b, ')' ∉ b ∧ bases = "(" ++ b ++ ")") (h₂ : Gap g₂) (h₃ : Gap g₃) :
      Turns record (ind ++ "struct" ++ s ++ name ++ g₁ ++ bases ++ g₂ ++ ":" ++ g₃)
        (ind ++ "struct " ++ name ++ " \x7b")
  | openBinding {ind name g₁ g₂ value g₃ : Text} {c : Char} (hind : Gap ind)
      (hname : Run isWord name) (h₁ : Gap g₁) (h₂ : Gap g₂)
      (hvalue : value = [] ∨ ∃ b v, value = b :: v ∧ beginsValue b)
      (hc : c = '[' ∨ c = '(' ∨ c = '\x7b') (h₃ : Gap g₃) :
      Turns openBinding (ind ++ name ++ g₁ ++ "=" ++ g₂ ++ value ++ c :: g₃)
        (ind ++ "let " ++ name ++ " = " ++ value ++ [c])
  | binding {ind name g₁ g₂ value g₃ : Text} {b : Char} (hind : Gap ind) (hname : Run isWord name)
      (h₁ : Gap g₁) (h₂ : Gap g₂) (hb : beginsValue b) (h₃ : Gap g₃) :
      Turns binding (ind ++ name ++ g₁ ++ "=" ++ g₂ ++ b :: value ++ g₃)
        (ind ++ "let " ++ name ++ " = " ++ b :: value ++ ";")
  | overRange {h : Header} {i : Inline} {ind s₁ target s₂ s₃ call operands g₁ g₂ : Text}
      (hi : h.range? = some i) (hind : Gap ind) (h₁ : Run isSpace s₁) (htarget : Run isWord target)
      (h₂ : Run isSpace s₂) (h₃ : Run isSpace s₃) (hcall : i.Turns call operands) (h₄ : Gap g₁)
      (h₅ : Gap g₂) :
      Turns h
        (ind ++ "for" ++ s₁ ++ target ++ s₂ ++ "in" ++ s₃ ++ call ++ g₁ ++ ":" ++ g₂)
        (ind ++ "for " ++ target ++ " in " ++ operands ++ " \x7b")
  | forEach {ind s₁ target s₂ s₃ items g₁ g₂ : Text} (hind : Gap ind) (h₁ : Run isSpace s₁)
      (htarget : target ≠ [] ∧ ':' ∉ target) (h₂ : Run isSpace s₂) (h₃ : Run isSpace s₃)
      (hitems : items ≠ []) (h₄ : Gap g₁) (h₅ : Gap g₂) :
      Turns forEach
        (ind ++ "for" ++ s₁ ++ target ++ s₂ ++ "in" ++ s₃ ++ items ++ g₁ ++ ":" ++ g₂)
        (ind ++ "for " ++ target ++ " in " ++ items ++ " \x7b")
  | conditional {h : Header} {ind key key' s condition g₁ g₂ : Text} (hkey : Keyword h key key')
      (hind : Gap ind) (hs : Run isSpace s) (hcondition : condition ≠ []) (h₁ : Gap g₁)
      (h₂ : Gap g₂) :
      Turns h (ind ++ key ++ s ++ condition ++ g₁ ++ ":" ++ g₂)
        (ind ++ key' ++ condition ++ " \x7b")
  | otherwise {ind g₁ g₂ : Text} (hind : Gap ind) (h₁ : Gap g₁) (h₂ : Gap g₂) :
      Turns otherwise (ind ++ "else" ++ g₁ ++ ":" ++ g₂) (ind ++ "\x7d else \x7b")

theorem isWhole_pattern (h : Header) : h.form.pattern.isWhole := by
  cases h <;> rfl

/-! ### What families of headers read -/

section Families

variable {x : Text} {fs : List (Field × Text)}

theorem exists_of_reads_functionHead {ps : List (Pattern Field)}
    (hx : (sequence (functionHead :: ps)).Reads x fs) :
    ∃ ind key s name g params t gs, Gap ind ∧ (key = ("def" : Text) ∨ key = ("fn" : Text)) ∧
      Run isSpace s ∧ Run isWord name ∧ Gap g ∧ ')' ∉ params ∧ (sequence ps).Reads t gs ∧
      x = ind ++ key ++ s ++ name ++ g ++ "(" ++ params ++ ")" ++ t ∧
      fs = (.indent, ind) :: (.name, name) :: (.params, params) :: gs := by
  simp (disch := decide) only [functionHead, reads_sequence_sequence, List.cons_append,
    List.nil_append, reads_sequence_indent, reads_sequence_space, reads_sequence_word,
    reads_sequence_gap, reads_sequence_text, reads_sequence_field (p := span _),
    reads_sequence_plain (p := alt _ _)] at hx
  obtain ⟨ind, _, _, hind, rfl, rfl, key, _, hkey, rfl, s, _, hs, rfl, name, _, _, hname, rfl, rfl,
    g, _, hg, rfl, _, rfl, params, _, gs, ⟨hparams, -⟩, rfl, rfl, t, rfl, ht⟩ := hx
  exact ⟨ind, key, s, name, g, params, t, gs, hind, hkey.imp And.left And.left, hs, hname, hg,
    not_mem_of_noneOf hparams (by decide), ht, by simp, rfl⟩

theorem exists_of_reads_assignment {p : Pattern Field} (hp : p.isPlain)
    (hx : (assignment p).Reads x fs) :
    ∃ ind name g₁ g₂ value g₃, Gap ind ∧ Run isWord name ∧ Gap g₁ ∧ Gap g₂ ∧ p.Reads value [] ∧
      Gap g₃ ∧ x = ind ++ name ++ g₁ ++ "=" ++ g₂ ++ value ++ g₃ ∧
      fs = [(.indent, ind), (.name, name), (.value, value)] := by
  simp only [assignment, reads_sequence_indent, reads_sequence_word, reads_sequence_gap,
    reads_sequence_text, reads_sequence_field hp, reads_sequence_stop] at hx
  obtain ⟨ind, _, _, hind, rfl, rfl, name, _, _, hname, rfl, rfl, g₁, _, h₁, rfl, _, rfl,
    g₂, _, h₂, rfl, value, _, _, hvalue, rfl, rfl, g₃, _, h₃, rfl, rfl, rfl⟩ := hx
  exact ⟨ind, name, g₁, g₂, value, g₃, hind, hname, h₁, h₂, hvalue, h₃, by simp, rfl⟩

theorem exists_of_reads_overRange {operands : List (Pattern Field)}
    (hx : (overRange operands).Reads x fs) :
    ∃ ind s₁ target s₂ s₃ t gs g₁ g₂, Gap ind ∧ Run isSpace s₁ ∧ Run isWord target ∧
      Run isSpace s₂ ∧ Run isSpace s₃ ∧ (sequence operands).Reads t gs ∧ Gap g₁ ∧ Gap g₂ ∧
      x = ind ++ "for" ++ s₁ ++ target ++ s₂ ++ "in" ++ s₃ ++ ("range(" ++ t) ++ g₁ ++ ":" ++ g₂ ∧
      fs = (.indent, ind) :: (.target, target) :: gs := by
  simp only [overRange, reads_sequence_indent, reads_sequence_space, reads_sequence_word,
    reads_sequence_text, reads_sequence_sequence, reads_sequence_append,
    reads_sequence_colonEnd] at hx
  obtain ⟨ind, _, _, hind, rfl, rfl, _, rfl, s₁, _, h₁, rfl, target, _, _, htarget, rfl, rfl,
    s₂, _, h₂, rfl, _, rfl, s₃, _, h₃, rfl, _, rfl, t, _, gs, _,
    ⟨ht, g₁, g₂, h₄, h₅, rfl, rfl⟩, rfl, rfl⟩ := hx
  exact ⟨ind, s₁, target, s₂, s₃, t, gs, g₁, g₂, hind, h₁, htarget, h₂, h₃, ht, h₄, h₅, by simp,
    by simp⟩

theorem exists_of_reads_conditional {keyword : Pattern Field} (hkeyword : keyword.isPlain)
    (hx : (conditional keyword).Reads x fs) :
    ∃ ind key s condition g₁ g₂ : Text, Gap ind ∧ keyword.Reads key [] ∧ Run isSpace s ∧
      condition ≠ [] ∧ Gap g₁ ∧ Gap g₂ ∧ x = ind ++ key ++ s ++ condition ++ g₁ ++ ":" ++ g₂ ∧
      fs = [(.indent, ind), (.condition, condition)] := by
  rw [conditional, reads_sequence_indent] at hx
  simp (disch := decide) only [reads_sequence_plain hkeyword, reads_sequence_oneOrMore,
    reads_sequence_field, reads_oneOrMore, reads_sequence_colonEnd] at hx
  obtain ⟨ind, _, _, hind, rfl, rfl, key, _, hkey, rfl, s, _, hs, rfl, condition, _, _,
    ⟨hcondition, -⟩, rfl, rfl, g₁, g₂, h₁, h₂, rfl, rfl⟩ := hx
  exact ⟨ind, key, s, condition, g₁, g₂, hind, hkey, hs, hcondition.1, h₁, h₂, by simp, rfl⟩

end Families

/-! ### Loops over ranges -/

section Ranges

variable {h : Header} {i : Inline}

theorem exists_operands (hi : h.range? = some i) :
    ∃ operands, h.form.pattern = overRange operands ∧ i.form.pattern = Inline.range operands := by
  cases h <;> cases hi <;> exact ⟨_, rfl, rfl⟩

theorem expand_of_range? (hi : h.range? = some i) (stop : Cursor) (ind target : Text)
    (fs : List (Field × Text)) :
    h.form.expand ⟨stop, (.indent, ind) :: (.target, target) :: fs⟩ =
      ind ++ "for " ++ target ++ " in " ++ i.form.expand ⟨stop, fs⟩ ++ " \x7b" := by
  cases h <;> cases hi <;>
    simp [Form.expand, form, body, Inline.form, Inline.template, Piece.expand]

theorem turns_of_range? (hi : h.range? = some i) {x y : Text} (hxy : h.form.Recasts x y) :
    h.Turns x y := by
  obtain ⟨⟨stop, fs⟩, hm, rfl⟩ := hxy
  obtain ⟨operands, hh, hi'⟩ := exists_operands hi
  rw [hh] at hm
  obtain ⟨ind, s₁, target, s₂, s₃, t, gs, g₁, g₂, hind, h₁, htarget, h₂, h₃, ht, h₄, h₅, rfl,
    rfl⟩ := exists_of_reads_overRange hm
  rw [expand_of_range? hi]
  refine .overRange hi hind h₁ htarget h₂ h₃ (Inline.turns_of_recasts ⟨⟨stop, gs⟩, ?_, rfl⟩) h₄ h₅
  rw [hi', Inline.reads_range]
  exact ⟨t, ht, rfl⟩

end Ranges

/-! ### All headers -/

theorem turns_of_recasts {h : Header} {x y : Text} (hxy : h.form.Recasts x y) : h.Turns x y := by
  obtain ⟨⟨stop, fs⟩, hm, rfl⟩ := hxy
  cases h with
  | functionTo =>
    obtain ⟨ind, key, s, name, g₁, params, _, _, hind, hkey, hs, hname, h₁, hparams, ht, rfl,
      rfl⟩ := exists_of_reads_functionHead hm
    simp (disch := decide) only [reads_sequence_gap, reads_sequence_text, reads_sequence_field,
      reads_sequence_plain (p := many _ _), reads_oneOrMore, reads_sequence_colonEnd] at ht
    obtain ⟨g₂, _, h₂, rfl, _, rfl, g₃, _, ⟨h₃, -⟩, rfl, result, _, _, ⟨hresult, -⟩, rfl, rfl,
      g₄, g₅, h₄, h₅, rfl, rfl⟩ := ht
    have hcolon : ':' ∉ result := not_mem_of_noneOf hresult.2 (by decide)
    have := Turns.functionTo hind hkey hs hname h₁ hparams h₂ h₃ ⟨hresult.1, hcolon⟩ h₄ h₅
    simpa [Form.expand, form, body, Piece.expand] using this
  | function =>
    obtain ⟨ind, key, s, name, g₁, params, _, _, hind, hkey, hs, hname, h₁, hparams, ht, rfl,
      rfl⟩ := exists_of_reads_functionHead hm
    obtain ⟨g₂, g₃, h₂, h₃, rfl, rfl⟩ := reads_sequence_colonEnd.1 ht
    have := Turns.function hind hkey hs hname h₁ hparams h₂ h₃
    simpa [Form.expand, form, body, Piece.expand] using this
  | record =>
    rw [form, pattern, reads_sequence_indent] at hm
    simp (disch := decide) only [reads_sequence_text, reads_sequence_space, reads_sequence_word,
      reads_sequence_gap, reads_sequence_plain (p := optional _), reads_sequence_colonEnd] at hm
    obtain ⟨ind, _, _, hind, rfl, rfl, _, rfl, s, _, hs, rfl, name, _, _, hname, rfl, rfl,
      g₁, _, h₁, rfl, bases, _, hbases, rfl, g₂, g₃, h₂, h₃, rfl, rfl⟩ := hm
    have hbases : bases = [] ∨ ∃ b, ')' ∉ b ∧ bases = "(" ++ b ++ ")" := by
      rcases hbases with hbases | ⟨rfl, -⟩
      · simp (disch := decide) only [reads_sequence_text, reads_sequence_plain (p := span _),
          reads_sequence_nil] at hbases
        obtain ⟨_, rfl, b, _, ⟨hb, -⟩, rfl, _, rfl, rfl, -⟩ := hbases
        exact .inr ⟨b, not_mem_of_noneOf hb (by decide), by simp⟩
      · exact .inl rfl
    have := Turns.record hind hs hname h₁ hbases h₂ h₃
    simpa [Form.expand, form, body, Piece.expand] using this
  | openBinding =>
    obtain ⟨ind, name, g₁, g₂, _, g₃, hind, hname, h₁, h₂, hvalue, h₃, rfl, rfl⟩ :=
      exists_of_reads_assignment rfl hm
    rw [reads_seq_plain rfl] at hvalue
    obtain ⟨value, _, hfirst, rfl, ⟨c, hc, rfl⟩, -⟩ := hvalue
    have hfirst : value = [] ∨ ∃ b v, value = b :: v ∧ beginsValue b := by
      rcases hfirst with hfirst | ⟨rfl, -⟩
      · obtain ⟨_, v, ⟨⟨b, hb, rfl⟩, -⟩, rfl, -⟩ := (reads_seq_plain rfl).1 hfirst
        exact .inr ⟨b, v, rfl, hb⟩
      · exact .inl rfl
    -- The bracket is the last character of the value, behind anything that may begin one.
    have hopening : c = '[' ∨ c = '(' ∨ c = '\x7b' := by simpa [oneOf] using hc
    have := Turns.openBinding hind hname h₁ h₂ hfirst hopening h₃
    simpa [Form.expand, form, body, Piece.expand] using this
  | binding =>
    obtain ⟨ind, name, g₁, g₂, _, g₃, hind, hname, h₁, h₂, hvalue, h₃, rfl, rfl⟩ :=
      exists_of_reads_assignment rfl hm
    rw [reads_seq_plain rfl] at hvalue
    obtain ⟨_, value, ⟨⟨b, hb, rfl⟩, -⟩, rfl, -⟩ := hvalue
    have := @Turns.binding ind name g₁ g₂ value g₃ b hind hname h₁ h₂ hb h₃
    simpa [Form.expand, form, body, Piece.expand] using this
  | rangeStep | rangeBetween | rangeTo => exact turns_of_range? rfl ⟨⟨stop, fs⟩, hm, rfl⟩
  | forEach =>
    simp (disch := decide) only [form, pattern, reads_sequence_indent, reads_sequence_text,
      reads_sequence_oneOrMore, reads_sequence_space, reads_sequence_field, reads_oneOrMore,
      reads_sequence_colonEnd] at hm
    obtain ⟨ind, _, _, hind, rfl, rfl, _, rfl, s₁, _, h₁, rfl, target, _, _, ⟨htarget, -⟩, rfl, rfl,
      s₂, _, h₂, rfl, _, rfl, s₃, _, h₃, rfl, items, _, _, ⟨hitems, -⟩, rfl, rfl, g₁, g₂, k₁, k₂,
      rfl, rfl⟩ := hm
    have hcolon : ':' ∉ target := not_mem_of_noneOf htarget.2 (by decide)
    have := Turns.forEach hind h₁ ⟨htarget.1, hcolon⟩ h₂ h₃ hitems.1 k₁ k₂
    simpa [Form.expand, form, body, Piece.expand] using this
  | whileLoop =>
    obtain ⟨ind, _, s, condition, g₁, g₂, hind, ⟨rfl, -⟩, hs, hcondition, h₁, h₂, rfl, rfl⟩ :=
      exists_of_reads_conditional rfl hm
    have := Turns.conditional .whileLoop hind hs hcondition h₁ h₂
    simpa [Form.expand, form, body, Piece.expand] using this
  | elseIf =>
    obtain ⟨ind, key, s, condition, g₁, g₂, hind, hkey, hs, hcondition, h₁, h₂, rfl, rfl⟩ :=
      exists_of_reads_conditional rfl hm
    simp only [reads_sequence_text, reads_sequence_gap, reads_sequence_space,
      reads_sequence_nil] at hkey
    obtain ⟨_, rfl, g, _, hg, rfl, _, rfl, s', _, hs', rfl, _, rfl, rfl, -⟩ := hkey
    have := Turns.conditional (.elseIf hg hs') hind hs hcondition h₁ h₂
    simpa [Form.expand, form, body, Piece.expand] using this
  | ifBranch =>
    obtain ⟨ind, _, s, condition, g₁, g₂, hind, ⟨rfl, -⟩, hs, hcondition, h₁, h₂, rfl, rfl⟩ :=
      exists_of_reads_conditional rfl hm
    have := Turns.conditional .ifBranch hind hs hcondition h₁ h₂
    simpa [Form.expand, form, body, Piece.expand] using this
  | otherwise =>
    simp only [form, pattern, reads_sequence_indent, reads_sequence_text,
      reads_sequence_colonEnd] at hm
    obtain ⟨ind, _, _, hind, rfl, rfl, _, rfl, g₁, g₂, h₁, h₂, rfl, rfl⟩ := hm
    have := Turns.otherwise hind h₁ h₂
    simpa [Form.expand, form, body, Piece.expand] using this

/-- A header holds a colon or an equals sign. -/
theorem Turns.not_gap {h : Header} {x y : Text} (hxy : h.Turns x y) : ¬Gap x := by
  intro hx
  have hcolon : ':' ∉ x := hx.not_mem rfl
  have hequals : '=' ∉ x := hx.not_mem rfl
  cases hxy <;> simp at hcolon hequals

end Header

end Oxidize
