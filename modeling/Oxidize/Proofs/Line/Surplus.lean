import Mathlib
import Oxidize.Proofs.Comment.Split
import Oxidize.Proofs.Layout.Surplus
import Oxidize.Proofs.Line.Stages
import Oxidize.Proofs.Text.Lines

/-!
# Brackets in converted lines

Every template puts the brackets of its pattern back: no form changes the surplus of a kind of
brackets, but for the brace that ends the head of a function or a block (`Header.raises`). The heads
of records drop the texts in their parentheses and are left out.
-/

namespace Oxidize

open Text Layout Delimiter

/-- Whether a header ends in a brace that its line did not have. -/
def Header.raises (h : Header) : Bool :=
  h.construct = .function || (h.construct = .block && h ≠ .otherwise)

section Replacements

variable {d : Delimiter} {x y : Text}

theorem Inline.Turns.surplus_eq {i : Inline} (hd : d ∈ brackets) (h : i.Turns x y) :
    d.surplus y = d.surplus x := by
  have gaps : ∀ {g}, Gap g → d.surplus g = 0 := surplus_of_gap hd
  simp only [brackets, List.mem_cons, List.not_mem_nil, or_false] at hd
  rcases hd with rfl | rfl | rfl <;> cases h <;> simp [weight, *] <;> omega

theorem Membership.Turns.surplus_eq {m : Membership} (hd : d ∈ brackets) (h : m.Turns x y) :
    d.surplus y = d.surplus x := by
  have gaps : ∀ {g}, Run isSpace g → d.surplus g = 0 := fun h => surplus_of_gap hd h.gap
  simp only [brackets, List.mem_cons, List.not_mem_nil, or_false] at hd
  rcases hd with rfl | rfl | rfl <;> cases h <;> simp [weight, *] <;> omega

/-- The surplus of a line that a header recasts is kept, but for the brace at the end of a head. -/
theorem Header.Turns.surplus_eq {h : Header} (hd : d ∈ brackets) (hrecord : h ≠ .record)
    (hxy : h.Turns x y) :
    d.surplus y = d.surplus x + if h.raises then d.weight '{' else 0 := by
  have gaps : ∀ {g}, Gap g → d.surplus g = 0 := surplus_of_gap hd
  have spaces : ∀ {g}, Run isSpace g → d.surplus g = 0 := fun h => surplus_of_gap hd h.gap
  simp only [brackets, List.mem_cons, List.not_mem_nil, or_false] at hd
  cases hxy with
  | functionTo _ hkey | function _ hkey =>
    rcases hkey with rfl | rfl <;> rcases hd with rfl | rfl | rfl <;>
      simp [raises, construct, weight, *] <;> omega
  | record => exact absurd rfl hrecord
  | overRange hi _ _ _ _ _ hcall =>
    have hblock : h.construct = .block ∧ h ≠ .otherwise := by
      cases h <;> cases hi <;> decide
    have := hcall.surplus_eq (d := d) (by simp [brackets, hd])
    rcases hd with rfl | rfl | rfl <;> simp [raises, weight, *]
    omega
  | conditional hkey =>
    rcases hd with rfl | rfl | rfl <;> cases hkey <;> simp [raises, construct, weight, *]
  | forEach =>
    rcases hd with rfl | rfl | rfl <;> simp [raises, construct, weight, *]
    omega
  | openBinding | binding | otherwise =>
    rcases hd with rfl | rfl | rfl <;> simp [raises, construct, weight, *]

end Replacements

namespace Line

variable {d : Delimiter}

theorem surplus_inline (hd : d ∈ brackets) (t : Text) : d.surplus (inline t) = d.surplus t := by
  refine inline_preserves (fun u => d.surplus u = d.surplus t) ?_ ?_ rfl
  · intro i p x y q hxy h
    simpa [hxy.surplus_eq hd] using h
  · intro m p x y q hxy h
    simpa [hxy.surplus_eq hd] using h

theorem surplus_convertCode (hd : d ∈ brackets) {code : Text}
    (hrecord : (header? code).map Prod.fst ≠ some .record) :
    d.surplus (convertCode code) = d.surplus code +
      if ((header? code).map Prod.fst).any Header.raises then d.weight '{' else 0 := by
  rcases convertCode_cases code with ⟨h, t, hh, hturns, heq⟩ | ⟨hh, heq⟩ |
    ⟨hh, kept, g, hg, hkept, heq⟩
  · rw [hh] at hrecord ⊢
    rw [heq, surplus_inline hd, hturns.surplus_eq hd (by simpa using hrecord)]
    rfl
  · simp [hh, heq, surplus_inline hd]
  · have hinline := surplus_inline hd code
    rw [hkept, surplus_append, surplus_of_gap hd hg, Int.add_zero] at hinline
    have hsemicolon : ∀ d ∈ brackets, d.weight ';' = 0 := by decide
    simp [hh, heq, hinline, hsemicolon d hd]

theorem surplus_convert (hd : d ∈ brackets) {line : Text} (hrecord : head? line ≠ some .record) :
    d.surplus (convert line) =
      d.surplus line + if (head? line).any Header.raises then d.weight '{' else 0 := by
  have hline : d.surplus line =
      d.surplus (Comment.split line).1 + d.surplus (Comment.split line).2 := by
    rw [← surplus_append, Comment.split_append]
  rw [convert_eq]
  split
  · rename_i hblank
    simp [head?, header?_of_gap (isBlank_iff_gap.1 hblank)]
  · rw [surplus_append, surplus_convertCode hd hrecord, hline, head?]
    omega

theorem surplus_dropReturn (hd : d ∈ brackets) (l : Text) :
    d.surplus (dropReturn l) = d.surplus l := by
  by_cases h : l.getLast? = some '\r'
  · obtain ⟨k, rfl⟩ := List.getLast?_eq_some_iff.1 h
    have hreturn : d.weight '\r' = 0 := weight_of_isSpace hd rfl
    simp [dropReturn_append_return, hreturn]
  · rw [dropReturn_of_ne h]

/-- The surplus of a text is that of its lines. -/
theorem sum_surplus_lines (hd : d ∈ brackets) (t : Text) :
    (t.lines.map d.surplus).sum = d.surplus t := by
  induction t using lines_induction with
  | nil => rfl
  | last l hl hne => simp [lines_of_not_mem hl hne]
  | line l r hl ih =>
    have hnewline : d.weight '\n' = 0 := weight_of_isSpace hd rfl
    simp [lines_append_newline hl, ih, surplus_dropReturn hd, hnewline]

theorem sum_surplus_convert (hd : d ∈ brackets) {ls : List Text}
    (hrecord : ∀ l ∈ ls, head? l ≠ some .record) :
    ((ls.map convert).map d.surplus).sum =
      (ls.map d.surplus).sum +
        ls.countP (fun l => (head? l).any Header.raises) * d.weight '{' := by
  induction ls with
  | nil => simp
  | cons l ls ih =>
    rw [List.forall_mem_cons] at hrecord
    simp only [List.map_cons, List.sum_cons, List.countP_cons, ih hrecord.2,
      surplus_convert hd hrecord.1]
    split <;> simp [Int.add_mul] <;> omega

/-- Lines that are no heads of records keep their brackets, and so do texts of such lines. Heads of
functions and blocks get one brace more. -/
theorem brackets_conserved :
    (∀ line : Text, head? line ≠ some .record →
      round.surplus (convert line) = round.surplus line ∧
      square.surplus (convert line) = square.surplus line ∧
      curly.surplus (convert line) =
        curly.surplus line + if (head? line).any Header.raises then 1 else 0) ∧
    ∀ t : Text, (∀ l ∈ t.lines, head? l ≠ some .record) →
      ((convertAll t).map round.surplus).sum = round.surplus t ∧
      ((convertAll t).map square.surplus).sum = square.surplus t ∧
      ((convertAll t).map curly.surplus).sum =
        curly.surplus t + t.lines.countP fun l => (head? l).any Header.raises := by
  have hround : round ∈ brackets := by decide
  have hsquare : square ∈ brackets := by decide
  have hcurly : curly ∈ brackets := by decide
  have round_brace : round.weight '{' = 0 := rfl
  have square_brace : square.weight '{' = 0 := rfl
  have curly_brace : curly.weight '{' = 1 := rfl
  constructor
  · intro line h
    refine ⟨?_, ?_, ?_⟩
    · simpa [round_brace] using surplus_convert hround h
    · simpa [square_brace] using surplus_convert hsquare h
    · simpa [curly_brace] using surplus_convert hcurly h
  · intro t h
    rw [convertAll, ← sum_surplus_lines hround, ← sum_surplus_lines hsquare,
      ← sum_surplus_lines hcurly]
    refine ⟨?_, ?_, ?_⟩
    · simpa [round_brace] using sum_surplus_convert hround h
    · simpa [square_brace] using sum_surplus_convert hsquare h
    · simpa [curly_brace] using sum_surplus_convert hcurly h

/-- A loop with a comment, alone and in a script. -/
theorem brackets_conserved_loop :
    (head? "for i in range(len(xs)): // \x7b" ≠ some .record ∧
      curly.surplus (convert "for i in range(len(xs)): // \x7b") = 2) ∧
    (∀ l ∈ Text.lines "for i in range(n):\n  print(f\"\x7bi\x7d\")", head? l ≠ some .record) ∧
      ((convertAll "for i in range(n):\n  print(f\"\x7bi\x7d\")").map round.surplus).sum = 0 := by
  have hline : head? "for i in range(len(xs)): // \x7b" ≠ some .record := by decide +kernel
  have htext : ∀ l ∈ Text.lines "for i in range(n):\n  print(f\"\x7bi\x7d\")",
      head? l ≠ some .record := by decide +kernel
  refine ⟨⟨hline, ?_⟩, htext, ?_⟩
  · rw [(brackets_conserved.1 _ hline).2.2]
    decide +kernel
  · rw [(brackets_conserved.2 _ htext).1]
    decide +kernel

end Line

end Oxidize
