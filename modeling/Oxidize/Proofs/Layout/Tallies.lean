import Oxidize.Layout.Balance
import Oxidize.Proofs.Text.Literals

/-!
# What a literal adds to a count

The count of a delimiter goes through a text piece by piece (`tallyFrom_append`), and the body of a
literal adds nothing, whatever it holds (`tallyFrom_body`). So a literal in a text is as good as any
other one in its place (`tally_literal`).
-/

namespace Oxidize.Layout

open Quoting

namespace Tally

variable {a b c : Tally}

@[ext] theorem ext (hopens : a.opens = b.opens) (hcloses : a.closes = b.closes) : a = b := by
  cases a
  cases b
  simp_all

@[simp] theorem zero_add (a : Tally) : 0 + a = a := by
  ext <;> simp

theorem add_assoc (a b c : Tally) : a + b + c = a + (b + c) := by
  ext <;> simp [Nat.add_assoc]

end Tally

namespace Delimiter

variable {b b' p : Text} {q : Char}

theorem tallyFrom_append (d : Delimiter) (s : Quoting) (t u : Text) :
    d.tallyFrom s (t ++ u) = d.tallyFrom s t + d.tallyFrom (s.after isDoubleQuote t) u := by
  induction t generalizing s with
  | nil => exact (Tally.zero_add _).symm
  | cons c t ih => rw [List.cons_append, tallyFrom, ih, tallyFrom, Tally.add_assoc, after_cons]

/-- The body of a literal adds nothing. -/
theorem tallyFrom_body (d : Delimiter) (hb : LiteralBody q b) : d.tallyFrom (.literal q) b = 0 := by
  induction hb with
  | nil => rfl
  | plain hq hc _ ih => simp [tallyFrom, next, hq, hc, ih]
  | escaped _ ih => simpa [tallyFrom, next] using ih

/-- A quote adds nothing either, so that a literal adds as much as no text. -/
theorem tallyFrom_literal (d : Delimiter) (hb : LiteralBody '"' b) (s : Text) :
    d.tallyFrom .code ('"' :: (b ++ '"' :: s)) = d.tally s := by
  have hopening : Quoting.code.next isDoubleQuote '"' = .literal '"' := rfl
  have hclosing : (Quoting.literal '"').next isDoubleQuote '"' = .code := rfl
  rw [tallyFrom, hopening, tallyFrom_append, tallyFrom_body d hb, hb.after, tallyFrom, hclosing]
  simp [isDoubleQuote, tally]

/-- Behind a text that leaves the scan in code, a literal separates two texts: they are counted each
on its own, and what the literal holds is not counted. -/
theorem tally_literal (d : Delimiter) (hp : Quoting.code.after isDoubleQuote p = .code)
    (hb : LiteralBody '"' b) (hb' : LiteralBody '"' b') (s : Text) :
    d.tally (p ++ '"' :: (b ++ '"' :: s)) = d.tally (p ++ '"' :: (b' ++ '"' :: s)) ∧
      d.tally (p ++ '"' :: (b ++ '"' :: s)) = d.tally p + d.tally s := by
  have hcount {body : Text} (hbody : LiteralBody '"' body) :
      d.tally (p ++ '"' :: (body ++ '"' :: s)) = d.tally p + d.tally s := by
    rw [tally, tallyFrom_append, hp, tallyFrom_literal d hbody]
    rfl
  exact ⟨(hcount hb).trans (hcount hb').symm, hcount hb⟩

/-- A brace in a literal, behind an escaped quote, counts as little as a pair of backslashes; behind
both the next literal, with a brace of its own, is read alike. -/
theorem tally_literal_escapes :
    (Quoting.code.after isDoubleQuote ['{', '\\'] = .code ∧
        LiteralBody '"' ['\\', '"', '{'] ∧ LiteralBody '"' ['\\', '\\']) ∧
      tally ⟨'{', '}'⟩
          (['{', '\\'] ++ '"' :: (['\\', '"', '{'] ++ '"' :: "\"\x7b\"\x7d".toList)) =
        tally ⟨'{', '}'⟩
          (['{', '\\'] ++ '"' :: (['\\', '\\'] ++ '"' :: "\"\x7b\"\x7d".toList)) ∧
      tally ⟨'{', '}'⟩
          (['{', '\\'] ++ '"' :: (['\\', '"', '{'] ++ '"' :: "\"\x7b\"\x7d".toList)) =
        ⟨1, 1⟩ := by
  have hp : Quoting.code.after isDoubleQuote ['{', '\\'] = .code := by decide
  have hb : LiteralBody '"' ['\\', '"', '{'] := .escaped (.plain (by decide) (by decide) .nil)
  have hb' : LiteralBody '"' ['\\', '\\'] := .escaped .nil
  obtain ⟨hsame, hsum⟩ := tally_literal ⟨'{', '}'⟩ hp hb hb' "\"\x7b\"\x7d".toList
  exact ⟨⟨hp, hb, hb'⟩, hsame, hsum.trans (by decide)⟩

end Delimiter

end Oxidize.Layout
