import Oxidize.Quoting

/-!
# Literals as pieces of text

`Quoting` says of a scan where it stands. Here the same is said of texts alone: `LiteralBody` is
what can stand between two quotes, `Outside` a text of whole literals and of characters that open
none.

* `LiteralBody.after`, a scan goes through a body and stays in its literal;
* `after_eq_code_iff`, the texts behind which a scan stands in code again.
-/

namespace Oxidize.Quoting

variable {opens : Char → Bool} {q : Char} {b t : Text}

/-- What stands between two quotes `q`: every `q` in it is behind a backslash that escapes it, and
no backslash at its end is left without a character to escape. -/
inductive LiteralBody (q : Char) : Text → Prop
  | nil : LiteralBody q []
  | plain {c : Char} {t : Text} : c ≠ q → c ≠ '\\' → LiteralBody q t → LiteralBody q (c :: t)
  | escaped {c : Char} {t : Text} : LiteralBody q t → LiteralBody q ('\\' :: c :: t)

/-- Whole literals, and between them characters that open none. -/
inductive Outside (opens : Char → Bool) : Text → Prop
  | nil : Outside opens []
  | plain {c : Char} {t : Text} : opens c = false → Outside opens t → Outside opens (c :: t)
  | literal {q : Char} {b t : Text} :
      opens q → LiteralBody q b → Outside opens t → Outside opens (q :: (b ++ q :: t))

/-- Without quotes a scan stays in code. -/
theorem after_code (ht : ∀ c ∈ t, opens c = false) : code.after opens t = code := by
  induction t with
  | nil => rfl
  | cons c t ih =>
    rw [List.forall_mem_cons] at ht
    rw [after_cons, next, ht.1]
    exact ih ht.2

/-- A scan through the body of a literal stays in the literal. -/
theorem LiteralBody.after (hb : LiteralBody q b) (opens : Char → Bool) :
    (literal q).after opens b = literal q := by
  induction hb with
  | nil => rfl
  | plain hq hc _ ih => rw [after_cons, next, if_neg hc, if_neg hq, ih]
  | escaped _ ih => exact ih

theorem next_literal_self (hq : q ≠ '\\') (opens : Char → Bool) :
    (literal q).next opens q = code := by
  rw [next, if_neg hq, if_pos rfl]

/-- A closing quote ends the literal. -/
theorem LiteralBody.after_append (hb : LiteralBody q b) (hq : q ≠ '\\') (t : Text) :
    (literal q).after opens (b ++ q :: t) = code.after opens t := by
  rw [Quoting.after_append, hb.after, after_cons, next_literal_self hq]

/-- The induction is on the rest of the text, for all three states at once: in a literal the rest
ends the body first, and behind a backslash it does so with its first character escaped. -/
theorem outside_of_after (t : Text) :
    (code.after opens t = code → Outside opens t) ∧
      (∀ q, opens q → (literal q).after opens t = code →
        ∃ b u, t = b ++ q :: u ∧ LiteralBody q b ∧ Outside opens u) ∧
      ∀ q, opens q → (escape q).after opens t = code →
        ∃ c b u, t = c :: (b ++ q :: u) ∧ LiteralBody q b ∧ Outside opens u := by
  induction t with
  | nil => exact ⟨fun _ => .nil, by rintro q - ⟨⟩, by rintro q - ⟨⟩⟩
  | cons c t ih =>
    obtain ⟨hcode, hliteral, hescape⟩ := ih
    refine ⟨fun h => ?_, fun q hq h => ?_, fun q hq h => ?_⟩
    · rw [after_cons, next] at h
      split at h
      · rename_i hc
        obtain ⟨b, u, rfl, hb, hu⟩ := hliteral c hc h
        exact .literal hc hb hu
      · rename_i hc
        exact .plain (by simpa using hc) (hcode h)
    · rw [after_cons, next] at h
      split at h
      · rename_i hc
        obtain ⟨d, b, u, rfl, hb, hu⟩ := hescape q hq h
        exact ⟨c :: d :: b, u, rfl, hc ▸ hb.escaped, hu⟩
      · rename_i hc
        split at h
        · rename_i hquote
          exact ⟨[], t, by rw [hquote, List.nil_append], .nil, hcode h⟩
        · rename_i hquote
          obtain ⟨b, u, rfl, hb, hu⟩ := hliteral q hq h
          exact ⟨c :: b, u, rfl, hb.plain hquote hc, hu⟩
    · obtain ⟨b, u, rfl, hb, hu⟩ := hliteral q hq h
      exact ⟨c, b, u, rfl, hb, hu⟩

theorem Outside.after (hopens : opens '\\' = false) (ht : Outside opens t) :
    code.after opens t = code := by
  induction ht with
  | nil => rfl
  | plain hc _ ih => rwa [after_cons, next, hc]
  | @literal q b t hq hb _ ih =>
    have hne : q ≠ '\\' := by
      rintro rfl
      exact Bool.false_ne_true (hopens.symm.trans hq)
    rwa [after_cons, next, if_pos hq, hb.after_append hne]

/-- A scan stands in code again behind whole literals, and nowhere else. -/
theorem after_eq_code_iff (hopens : opens '\\' = false) :
    code.after opens t = code ↔ Outside opens t :=
  ⟨(outside_of_after t).1, Outside.after hopens⟩

end Oxidize.Quoting
