import Oxidize.Toml.Value

/-!
# The grammar of TOML

Which table a document stands for, after TOML 1.0. Each rule relates a text to the text that remains
behind what the rule describes: `ValueAt n s x t` says that `s` begins with the value `x`, nested at
most `n` deep, and goes on with `t`. A `Document` is a whole text.

The rules describe strings with all kinds of quotes and all escapes, natural numbers, truth values,
arrays, inline tables, comments and headers. Lines end in a line feed, keys have one part, and the
elements of an array of tables stand together. On floats, dates and times, on other spellings of
numbers, on dotted keys and on lines that a backslash joins they say nothing.
-/

namespace Oxidize.Toml

/-! ### White space -/

/-- Spaces and tabs. -/
inductive Blanks : Text → Text → Prop
  | nil {t : Text} : Blanks t t
  | cons {c : Char} {s t : Text} (hc : isBlankChar c) (h : Blanks s t) : Blanks (c :: s) t

/-- The rest of a line, with blanks and a comment, or inside of a comment. -/
inductive LineEnd : (inComment : Bool) → Text → Text → Prop
  | feed {inComment : Bool} {t : Text} : LineEnd inComment ('\n' :: t) t
  | blank {c : Char} {s t : Text} (hc : isBlankChar c) (h : LineEnd false s t) :
      LineEnd false (c :: s) t
  | mark {s t : Text} (h : LineEnd true s t) : LineEnd false ('#' :: s) t
  | char {c : Char} {s t : Text} (hc : isPrintable c) (h : LineEnd true s t) :
      LineEnd true (c :: s) t

/-- Blanks, line ends and comments. -/
inductive Filler : Text → Text → Prop
  | nil {t : Text} : Filler t t
  | blank {c : Char} {s t : Text} (hc : isBlankChar c ∨ c = '\n') (h : Filler s t) :
      Filler (c :: s) t
  | comment {s u t : Text} (hs : LineEnd true s u) (h : Filler u t) : Filler ('#' :: s) t

/-! ### Strings -/

/-- Double and single quotes. -/
def IsQuote (q : Char) : Prop :=
  q = '"' ∨ q = '\''

/-- What follows the backslash of an escape. -/
inductive Escape : Text → Char → Text → Prop
  | letter {l c : Char} {t : Text} (h : escapedChar? l = some c) : Escape (l :: t) c t
  | four {i j k l c : Char} {t : Text} (h : numberedChar? [i, j, k, l] = some c) :
      Escape ('u' :: i :: j :: k :: l :: t) c t
  | eight {i j k l i' j' k' l' c : Char} {t : Text}
      (h : numberedChar? [i, j, k, l, i', j', k', l'] = some c) :
      Escape ('U' :: i :: j :: k :: l :: i' :: j' :: k' :: l' :: t) c t

/-- The rest of a string on one line. Only double quotes have escapes between them. -/
inductive Short (q : Char) : Text → Text → Text → Prop
  | close {t : Text} : Short q (q :: t) [] t
  | char {c : Char} {s v t : Text} (hc : isPrintable c) (hq : c ≠ q)
      (hescape : q = '"' → c ≠ '\\') (h : Short q s v t) : Short q (c :: s) (c :: v) t
  | escape {c : Char} {s u v t : Text} (hq : q = '"') (hc : Escape s c u) (h : Short q u v t) :
      Short q ('\\' :: s) (c :: v) t

/-- The rest of a string between three quotes, behind `run` quotes that belong to it. No more than
two quotes in a row belong to it, also where it ends. -/
inductive Long (q : Char) : (run : Nat) → Text → Text → Text → Prop
  | close {run : Nat} {t : Text} (ht : t.head? ≠ some q) : Long q run (q :: q :: q :: t) [] t
  | quote {run : Nat} {s v t : Text} (hrun : run < 2) (h : Long q (run + 1) s v t) :
      Long q run (q :: s) (q :: v) t
  | char {run : Nat} {c : Char} {s v t : Text} (hc : c = '\n' ∨ isPrintable c) (hq : c ≠ q)
      (hescape : q = '"' → c ≠ '\\') (h : Long q 0 s v t) : Long q run (c :: s) (c :: v) t
  | escape {run : Nat} {c : Char} {s u v t : Text} (hq : q = '"') (hc : Escape s c u)
      (h : Long q 0 u v t) : Long q run ('\\' :: s) (c :: v) t

/-- A string. A line feed right behind three quotes does not belong to it. -/
inductive StringAt : Text → Text → Text → Prop
  | short {q : Char} {s v t : Text} (hq : IsQuote q) (h : Short q s v t) (ht : t.head? ≠ some q) :
      StringAt (q :: s) v t
  | long {q : Char} {s v t : Text} (hq : IsQuote q) (h : Long q 0 s v t)
      (hs : s.head? ≠ some '\n') : StringAt (q :: q :: q :: s) v t
  | lines {q : Char} {s v t : Text} (hq : IsQuote q) (h : Long q 0 s v t) :
      StringAt (q :: q :: q :: '\n' :: s) v t

/-! ### Keys and values -/

/-- A key of one part. -/
inductive KeyAt : Text → Text → Text → Prop
  | bare {k t : Text} (hk : isBareKey k) (ht : ∀ c ∈ t.head?, isKeyChar c = false) :
      KeyAt (k ++ t) k t
  | quoted {q : Char} {s k t : Text} (hq : IsQuote q) (h : Short q s k t) : KeyAt (q :: s) k t

/-- A key, an equals sign and a value, where `P` says what a value is. -/
inductive AssignmentAt (P : Text → Value → Text → Prop) : Text → Text → Value → Text → Prop
  | mk {s s₁ s₂ s₃ t k : Text} {x : Value} (hk : KeyAt s k s₁) (h₁ : Blanks s₁ ('=' :: s₂))
      (h₂ : Blanks s₂ s₃) (hx : P s₃ x t) : AssignmentAt P s k x t

/-- The elements of an array and its end. A comma may stand behind the last one. -/
inductive Elements (P : Text → Value → Text → Prop) : Text → List Value → Text → Prop
  | close {s t : Text} (h : Filler s (']' :: t)) : Elements P s [] t
  | last {s s₁ s₂ t : Text} {x : Value} (h₁ : Filler s s₁) (hx : P s₁ x s₂)
      (h₂ : Filler s₂ (']' :: t)) : Elements P s [x] t
  | cons {s s₁ s₂ s₃ t : Text} {x : Value} {xs : List Value} (h₁ : Filler s s₁) (hx : P s₁ x s₂)
      (h₂ : Filler s₂ (',' :: s₃)) (h : Elements P s₃ xs t) : Elements P s (x :: xs) t

/-- The assignments of an inline table and its end. -/
inductive Entries (P : Text → Value → Text → Prop) : Text → Table → Text → Prop
  | last {s s₁ s₂ t k : Text} {x : Value} (h₁ : Blanks s s₁) (ha : AssignmentAt P s₁ k x s₂)
      (h₂ : Blanks s₂ ('}' :: t)) : Entries P s [(k, x)] t
  | cons {s s₁ s₂ s₃ t k : Text} {x : Value} {es : Table} (h₁ : Blanks s s₁)
      (ha : AssignmentAt P s₁ k x s₂) (h₂ : Blanks s₂ (',' :: s₃)) (h : Entries P s₃ es t) :
      Entries P s ((k, x) :: es) t

/-- A string, a natural number or a truth value. -/
inductive ScalarAt : Text → Value → Text → Prop
  | text {s v t : Text} (h : StringAt s v t) : ScalarAt s (.text v) t
  | natural {i : Nat} {t : Text} (hi : i ≤ maxInteger.toNat)
      (ht : ∀ c ∈ t.head?, isTokenChar c = false) : ScalarAt (Text.ofNat i ++ t) (.integer i) t
  | boolean {b : Bool} {t : Text} (ht : ∀ c ∈ t.head?, isTokenChar c = false) :
      ScalarAt ((if b then ("true" : Text) else "false") ++ t) (.boolean b) t

/-- An array or an inline table, where `P` says what the values in it are. -/
inductive CompoundAt (P : Text → Value → Text → Prop) : Text → Value → Text → Prop
  | array {s t : Text} {xs : List Value} (h : Elements P s xs t) :
      CompoundAt P ('[' :: s) (.array xs) t
  | empty {s t : Text} (h : Blanks s ('}' :: t)) : CompoundAt P ('{' :: s) (.table []) t
  | table {s t : Text} {es : Table} (h : Entries P s es t) (hkeys : es.keys.Nodup) :
      CompoundAt P ('{' :: s) (.table es) t

/-- A value that is nested at most `n` deep. -/
def ValueAt : (n : Nat) → Text → Value → Text → Prop
  | 0, s, x, t => ScalarAt s x t
  | n + 1, s, x, t => ScalarAt s x t ∨ CompoundAt (ValueAt n) s x t

/-! ### Documents -/

/-- The lines of a table: assignments, blank lines and comments. -/
inductive Body : Text → Table → Text → Prop
  | nil {s t : Text} (h : Filler s t) : Body s [] t
  | cons {s s₁ s₂ s₃ t k : Text} {x : Value} {es : Table} (h₁ : Filler s s₁)
      (ha : AssignmentAt (ValueAt maxDepth) s₁ k x s₂) (h₂ : LineEnd false s₂ s₃)
      (h : Body s₃ es t) : Body s ((k, x) :: es) t

/-- The rest of a header and its line: a key and the closing brackets. -/
inductive HeaderAt (brackets : Text) : Text → Text → Text → Prop
  | mk {s s₁ s₂ s₃ t k : Text} (h₁ : Blanks s s₁) (hk : KeyAt s₁ k s₂)
      (h₂ : Blanks s₂ (brackets ++ s₃)) (h₃ : LineEnd false s₃ t) : HeaderAt brackets s k t

/-- The elements of the array of tables under a key, each with its header. -/
inductive Items (k : Text) : Text → List Table → Text → Prop
  | nil {t : Text} : Items k t [] t
  | cons {s s₁ s₂ t : Text} {es : Table} {ts : List Table} (hk : HeaderAt "]]" s k s₁)
      (hb : Body s₁ es s₂) (hkeys : es.keys.Nodup) (h : Items k s₂ ts t) :
      Items k ('[' :: '[' :: s) (es :: ts) t

/-- The tables and arrays of tables that have headers, up to the end of the document. -/
inductive Sections : Text → Table → Prop
  | nil : Sections [] []
  | table {s s₁ s₂ k : Text} {es rest : Table} (hk : HeaderAt "]" s k s₁) (hb : Body s₁ es s₂)
      (hkeys : es.keys.Nodup) (h : Sections s₂ rest) :
      Sections ('[' :: s) ((k, .table es) :: rest)
  | items {s s₁ k : Text} {ts : List Table} {rest : Table} (hts : Items k s ts s₁) (hne : ts ≠ [])
      (h : Sections s₁ rest) : Sections s ((k, .array (ts.map .table)) :: rest)

/-- A document and the table that it stands for. -/
inductive Document : Text → Table → Prop
  | mk {d s : Text} {es rest : Table} (hb : Body d es s) (hs : Sections s rest)
      (hkeys : (es ++ rest : Table).keys.Nodup) : Document d (es ++ rest)

end Oxidize.Toml
