import Oxidize.Proofs.Line.LoopOrder

/-!
# Heads of loops over ranges

The head of a loop over a range (`RangeLoop`) with one, two or three operands (`Range`), and the
header that it has. The pattern of the header takes the operands one after the other
(`RangeLoop.takes_line`), so that the header writes them in the range of the converted loop
(`RangeLoop.recast?_line`). No header that is tried before its own one fits such a head
(`Line.header?_of_mem_rangeLoops`), so that this is what becomes of the line.
-/

namespace Oxidize

open Pattern Text

/-! ### Around the operands -/

namespace Pattern

theorem takes_indent {v : Text} (hv : ∀ c ∈ v.head?, isSpace c = false) :
    indent.Takes ⟨none, v⟩ ⟨none, v⟩ [(.indent, [])] :=
  have hgap : gap.Takes ⟨none, [] ++ v⟩ ⟨none, v⟩ [] := takes_span (by simp) hv
  (takes_start v).sequence ((hgap.field Field.indent).sequence (takes_nil _))

theorem takes_space {v : Text} (hv : ∀ c ∈ v.head?, isSpace c = false) (before : Option Char) :
    space.Takes ⟨before, " " ++ v⟩ ⟨some ' ', v⟩ [] :=
  takes_chars (by decide) hv

theorem takes_colonEnd (n k : Nat) (before : Option Char) :
    ∃ last, colonEnd.Takes ⟨before, spaces n ++ (":" ++ (spaces k ++ ([] : Text)))⟩ ⟨last, []⟩ [] :=
  ⟨_, (takes_span (Layout.gap_spaces n) (by rintro _ ⟨rfl⟩; rfl)).sequence
    ((takes_text ":" _ _).sequence ((takes_span (Layout.gap_spaces k) (by simp)).sequence
      ((takes_stop _).sequence (takes_nil _))))⟩

end Pattern

/-! ### Ranges -/

/-- The range that a loop runs over: up to a bound, between two bounds, or with a step. -/
inductive Range
  | upTo (upper : Padded)
  | between (lower upper : Padded)
  | stepping (lower upper step : Padded)

namespace Range

/-- The header of a loop over the range. -/
def header : Range → Header
  | upTo _ => .rangeTo
  | between _ _ => .rangeBetween
  | stepping _ _ _ => .rangeStep

/-- The operands of the range, under their names. -/
def arguments : Range → List (Field × Padded)
  | upTo upper => [(.upper, upper)]
  | between lower upper => [(.lower, lower), (.upper, upper)]
  | stepping lower upper step => [(.lower, lower), (.upper, upper), (.step, step)]

/-- The call that stands for the range in the script. -/
def call (r : Range) : Text :=
  "range(" ++ writeArguments (r.arguments.map Prod.snd)

/-- The range in the converted loop, for a way to write its operands. -/
def limits (f : Operand → Text) : Range → Text
  | upTo upper => "0.." ++ f upper.operand
  | between lower upper => f lower.operand ++ ".." ++ f upper.operand
  | stepping lower upper step =>
    "(" ++ f lower.operand ++ ".." ++ f upper.operand ++ ").step_by(" ++ f step.operand ++ ")"

theorem pattern_header (r : Range) :
    r.header.form.pattern = Header.overRange (argumentList (r.arguments.map Prod.fst)) := by
  cases r <;> rfl

theorem header_mem_rangeLoops (r : Range) : r.header ∈ Header.rangeLoops := by
  cases r <;> simp [header, Header.rangeLoops]

/-- What the header writes. -/
theorem expand_header (r : Range) (stop : Cursor) (target : Text) :
    r.header.form.expand ⟨stop, (.indent, []) :: (.target, target) ::
        r.arguments.map fun a => (a.1, a.2.operand.source)⟩ =
      "for " ++ target ++ " in " ++ r.limits Operand.source ++ " \x7b" := by
  cases r <;>
    simp [header, arguments, limits, Form.expand, Header.form, Header.body, Piece.expand]

theorem arguments_ne_nil (r : Range) : r.arguments ≠ [] := by
  cases r <;> exact List.cons_ne_nil _ _

end Range

/-- The head of a loop over a range, with the numbers of spaces around its colon. -/
structure RangeLoop where
  target : Text
  range : Range
  beforeColon : Nat
  behindColon : Nat
  word_target : Run isWord target

namespace RangeLoop

variable (l : RangeLoop)

/-- What stands in front of the range. -/
def front : Text :=
  "for " ++ l.target ++ " in "

/-- What stands behind the range in the script. -/
def colon : Text :=
  spaces l.beforeColon ++ ":" ++ spaces l.behindColon

/-- The line of the script. -/
def line : Text :=
  l.front ++ l.range.call ++ l.colon

/-- The head of the converted loop, for a way to write the operands of its range. -/
def opening (f : Operand → Text) : Text :=
  l.front ++ l.range.limits f ++ " \x7b"

/-- The line, cut as the pattern of its header is cut. -/
theorem line_eq : l.line = "for" ++ (" " ++ (l.target ++ (" " ++ ("in" ++ (" " ++ ("range(" ++
    (writeArguments (l.range.arguments.map Prod.snd) ++ (spaces l.beforeColon ++
      (":" ++ (spaces l.behindColon ++ ([] : Text))))))))))) := by
  unfold line front colon Range.call
  simp

/-! ### The header of the line -/

/-- The pattern of the header has one way through the line. -/
theorem takes_line :
    ∃ stop, l.range.header.form.pattern.Takes ⟨none, l.line⟩ stop
      ((.indent, []) :: (.target, l.target) ::
        l.range.arguments.map fun a => (a.1, a.2.operand.source)) := by
  have hword {v : Text} : ∀ c ∈ (l.target ++ v).head?, isSpace c = false := fun c hc =>
    Line.isSpace_of_isWord (l.word_target.set_of_head? v c hc)
  have htarget {before : Option Char} {v : Text} (hv : ∀ c ∈ v.head?, isWord c = false) :
      (field Field.target word).Takes ⟨before, l.target ++ v⟩
        ⟨l.target.getLast?.or before, v⟩ [(.target, l.target)] :=
    (takes_chars l.word_target hv).field Field.target
  obtain ⟨last, hcolon⟩ := takes_colonEnd l.beforeColon l.behindColon (some ')')
  have htakes := (takes_indent (by rintro _ ⟨rfl⟩; rfl)).sequence ((takes_text "for" _ _).sequence
    ((takes_space hword _).sequence ((htarget (by rintro _ ⟨rfl⟩; rfl)).sequence
      ((takes_space (by rintro _ ⟨rfl⟩; rfl) _).sequence ((takes_text "in" _ _).sequence
        ((takes_space (by rintro _ ⟨rfl⟩; rfl) _).sequence ((takes_text "range(" _ _).sequence
          ((takes_arguments l.range.arguments_ne_nil _ _).sequence
            (hcolon.sequence (takes_nil _))))))))))
  rw [l.range.pattern_header, Header.overRange, l.line_eq]
  exact ⟨_, by simpa using htakes⟩

/-- What the header makes of the line. -/
theorem recast?_line :
    l.range.header.form.recast? l.line = some (l.opening Operand.source) := by
  obtain ⟨stop, htakes⟩ := l.takes_line
  rw [Form.recast?, find?_of_opensText l.range.header.keepsIndent.opensText, htakes.matchAt?_eq,
    Option.map_some, l.range.expand_header]
  rfl

theorem header?_line :
    Line.header? l.line = some (l.range.header, l.opening Operand.source) :=
  Line.header?_of_mem_rangeLoops l.range.header_mem_rangeLoops l.recast?_line

end RangeLoop

/-! ### The characters of the line -/

/-- The characters of the heads of loops: words, dots, spaces and the marks around operands. -/
def isLoopChar (c : Char) : Bool :=
  isDotted c || oneOf " (),:\x7b" c

/-- A text of such characters. -/
def Spelled (t : Text) : Prop :=
  ∀ c ∈ t, isLoopChar c

instance (t : Text) : Decidable (Spelled t) :=
  inferInstanceAs (Decidable (∀ c ∈ t, isLoopChar c))

section Characters

variable {u v : Text}

theorem Spelled.append (hu : Spelled u) (hv : Spelled v) : Spelled (u ++ v) :=
  List.forall_mem_append.2 ⟨hu, hv⟩

theorem spelled_of_dotted (hu : ∀ c ∈ u, isDotted c) : Spelled u :=
  fun c hc => by rw [isLoopChar, hu c hc, Bool.true_or]

theorem spelled_spaces (n : Nat) : Spelled (spaces n) := by
  intro c hc
  obtain rfl := List.eq_of_mem_replicate hc
  rfl

theorem Spelled.not_mem {c : Char} (hu : Spelled u) (hc : isLoopChar c = false) : c ∉ u :=
  fun h => Bool.false_ne_true (hc ▸ hu c h)

theorem Operand.spelled_source (o : Operand) : Spelled o.source := by
  have hback : Spelled o.back := by
    rw [back]
    split
    · exact (Spelled.append (by decide) (spelled_of_dotted o.dotted.2)).append (by decide)
    · decide
  exact (spelled_of_dotted o.run_front.2).append hback

theorem Padded.spelled_write (p : Padded) : Spelled p.write :=
  ((spelled_spaces _).append p.operand.spelled_source).append (spelled_spaces _)

theorem spelled_writeArguments (ps : List Padded) : Spelled (writeArguments ps) := by
  induction ps with
  | nil => decide
  | cons p ps ih =>
    cases ps with
    | nil => exact p.spelled_write.append (by decide)
    | cons q ps => exact p.spelled_write.append (Spelled.append (u := [',']) (by decide) ih)

end Characters

namespace RangeLoop

variable (l : RangeLoop)

theorem dotted_target : ∀ c ∈ l.target, isDotted c :=
  fun c hc => by rw [isDotted, l.word_target.2 c hc, Bool.true_or]

theorem spelled_front : Spelled l.front :=
  (Spelled.append (by decide) (spelled_of_dotted l.dotted_target)).append (by decide)

theorem spelled_line : Spelled l.line := by
  have hcall : Spelled l.range.call := .append (by decide) (spelled_writeArguments _)
  have hcolon : Spelled l.colon :=
    ((spelled_spaces _).append (by decide)).append (spelled_spaces _)
  exact (l.spelled_front.append hcall).append hcolon

end RangeLoop

end Oxidize
