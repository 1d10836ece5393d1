import Mathlib.Data.List.Basic
import Mathlib.Data.List.TakeWhile
import Oxidize.Proofs.Text.Run
import Oxidize.Toml.Scalar

/-!
# Written numbers and truth values are read back

The decimal digits of a number are no date, no time and no float, and they are read as that number
(`readScalar_ofNat`), if it is an integer of 64 bits. `true` and `false` are read as truth values.
-/

namespace Oxidize.Toml

variable {c : Char} {t rest : Text} {n : Nat}

/-! ### Digits -/

theorem bounds_of_isDigit (hc : c.isDigit) : 48 ≤ c.toNat ∧ c.toNat ≤ 57 := by
  simpa [Char.isDigit, UInt32.le_iff_toNat_le] using hc

theorem digitValue?_of_isDigit (hc : c.isDigit) : digitValue? 10 c = some (c.toNat - 48) := by
  have hbounds := bounds_of_isDigit hc
  have hzero : '0' ≤ c := hbounds.1
  have hnine : c ≤ '9' := hbounds.2
  have hvalue : c.toNat - '0'.toNat < 10 := by
    have : '0'.toNat = 48 := rfl
    omega
  simp only [digitValue?, hzero, hnine, and_self, if_true, if_pos hvalue]
  rfl

theorem digitValues?_of_digits (ht : ∀ c ∈ t, c.isDigit) (hne : t ≠ []) :
    digitValues? 10 t = some (t.map fun c => c.toNat - 48) := by
  induction t with
  | nil => exact absurd rfl hne
  | cons c t ih =>
    rw [List.forall_mem_cons] at ht
    cases t with
    | nil => simp [digitValues?, digitValue?_of_isDigit ht.1]
    | cons d t =>
      have hd : d ≠ '_' := by
        rintro rfl
        exact absurd (ht.2 _ List.mem_cons_self) (by decide)
      rw [digitValues?]
      · rw [digitValue?_of_isDigit ht.1, ih ht.2 (by simp)]
        rfl
      · simp
      · rintro r h
        exact hd (List.cons.inj h).1

theorem isDigit_of_mem_ofNat (hc : c ∈ Text.ofNat n) : c.isDigit :=
  Nat.isDigit_of_mem_toDigits (by decide) (by decide) hc

theorem ofNat_ne_nil (n : Nat) : Text.ofNat n ≠ [] :=
  Nat.toDigits_ne_nil

theorem natural?_ofNat (n : Nat) : natural? 10 (Text.ofNat n) = some n := by
  rw [natural?, digitValues?_of_digits (fun _ => isDigit_of_mem_ofNat) (ofNat_ne_nil n)]
  have hfold : ofDigits 10 ((Text.ofNat n).map fun c => c.toNat - 48) =
      Nat.ofDigitChars 10 (Nat.toDigits 10 n) 0 := by
    simp only [ofDigits, Nat.ofDigitChars, List.foldl_map, Nat.mul_comm 10]
    rfl
  rw [Option.map_some, hfold, Nat.ofDigitChars_toDigits (by decide) (by decide)]

/-- No zero stands in front of the digits of a number, unless it is zero itself. -/
theorem head?_ofNat_ne (hn : n ≠ 0) : (Text.ofNat n).head? ≠ some '0' := by
  induction n using Nat.strongRecOn with
  | _ n ih =>
    by_cases hsmall : n < 10
    · have digits : ∀ n < 10, n ≠ 0 → (Nat.toDigits 10 n).head? ≠ some '0' := by decide
      exact digits n hsmall hn
    · have hstep : Text.ofNat n = Text.ofNat (n / 10) ++ [(n % 10).digitChar] :=
        Nat.toDigits_of_base_le (by decide) (by omega)
      rw [hstep, List.head?_append_of_ne_nil _ (ofNat_ne_nil _)]
      exact ih (n / 10) (by omega) (by omega)

theorem decimal?_ofNat (n : Nat) : decimal? (Text.ofNat n) = some n := by
  by_cases hn : n = 0
  · subst hn
    decide
  · have hhead := head?_ofNat_ne hn
    rw [decimal?]
    · exact natural?_ofNat n
    · rintro h
      exact hhead (by rw [h]; rfl)
    · rintro r h
      exact hhead (by rw [h]; rfl)

/-! ### Digits are no other value -/

section Digits

variable (ht : ∀ c ∈ t, c.isDigit)

include ht

theorem afterDate?_of_digits : afterDate? t = none := by
  rw [afterDate?]
  rintro a b c d e f g h r rfl
  exact absurd (ht '-' (by simp)) (by decide)

theorem afterTime?_of_digits : afterTime? t = none := by
  rw [afterTime?]
  rintro a b c d e f r rfl
  exact absurd (ht ':' (by simp)) (by decide)

theorem isMoment_of_digits : isMoment t = false := by
  rw [isMoment, afterDate?_of_digits ht, afterTime?_of_digits ht]
  rfl

theorem sign_of_digits : sign t = (false, t) := by
  rw [sign]
  · rintro r rfl
    exact absurd (ht '+' (by simp)) (by decide)
  · rintro r rfl
    exact absurd (ht '-' (by simp)) (by decide)

theorem isFloat_of_digits : isFloat t = false := by
  have hinf : t ≠ "inf" := by
    rintro rfl
    exact absurd (ht 'i' (by decide)) (by decide)
  have hnan : t ≠ "nan" := by
    rintro rfl
    exact absurd (ht 'n' (by decide)) (by decide)
  have hwhole : t.takeWhile (fun c => c ≠ '.' && c ≠ 'e' && c ≠ 'E') = t := by
    rw [List.takeWhile_eq_self_iff]
    intro c hc
    have hdigit := ht c hc
    simp only [Bool.and_eq_true, decide_eq_true_eq]
    refine ⟨⟨?_, ?_⟩, ?_⟩ <;> rintro rfl <;> exact absurd hdigit (by decide)
  rw [isFloat, sign_of_digits ht]
  simp only [hinf, hnan, or_self, if_false, hwhole, List.drop_length]
  split <;> rfl

theorem integerOfAnySize?_of_digits :
    integerOfAnySize? t = (decimal? t).map Int.ofNat := by
  rw [integerOfAnySize?]
  · rw [sign_of_digits ht]
    rfl
  all_goals
    rintro r rfl
    have hletter := ht _ (List.mem_cons_of_mem _ List.mem_cons_self)
    exact absurd hletter (by decide)

end Digits

/-! ### Tokens -/

theorem token_append (ht : ∀ c ∈ t, isTokenChar c) (hdate : afterDate? t = none)
    (hrest : ∀ c ∈ rest.head?, isTokenChar c = false) : token (t ++ rest) = (t, rest) := by
  rw [token]
  simp only [Text.takeWhile_append ht hrest, List.drop_left, hdate]

theorem scalar?_ofNat (hn : n ≤ maxInteger.toNat) :
    scalar? (Text.ofNat n) = some (.integer n) := by
  have ht : ∀ c ∈ Text.ofNat n, c.isDigit := fun _ => isDigit_of_mem_ofNat
  have htrue : Text.ofNat n ≠ "true" := by
    intro h
    exact absurd (ht 't' (by rw [h]; decide)) (by decide)
  have hfalse : Text.ofNat n ≠ "false" := by
    intro h
    exact absurd (ht 'f' (by rw [h]; decide)) (by decide)
  have hinteger : integer? (Text.ofNat n) = some (n : Int) := by
    have hbounds : minInteger ≤ (n : Int) ∧ (n : Int) ≤ maxInteger := by
      simp only [minInteger, maxInteger] at hn ⊢
      omega
    rw [integer?, integerOfAnySize?_of_digits ht, decimal?_ofNat]
    simp [hbounds]
  rw [scalar?, if_neg htrue, if_neg hfalse, isMoment_of_digits ht, isFloat_of_digits ht, hinteger]
  rfl

theorem readScalar_ofNat (hn : n ≤ maxInteger.toNat)
    (hrest : ∀ c ∈ rest.head?, isTokenChar c = false) :
    readScalar (Text.ofNat n ++ rest) = some (.integer n, rest) := by
  have ht : ∀ c ∈ Text.ofNat n, c.isDigit := fun _ => isDigit_of_mem_ofNat
  have htoken : ∀ c ∈ Text.ofNat n, isTokenChar c := by
    intro c hc
    simp [isTokenChar, Char.isAlphanum, ht c hc]
  rw [readScalar, token_append htoken (afterDate?_of_digits ht) hrest, scalar?_ofNat hn]
  rfl

theorem readScalar_flag (b : Bool) (hrest : ∀ c ∈ rest.head?, isTokenChar c = false) :
    readScalar ((if b then ("true" : Text) else "false") ++ rest) = some (.boolean b, rest) := by
  cases b with
  | true =>
    rw [if_pos rfl, readScalar, token_append (List.all_eq_true.1 (by decide)) rfl hrest]
    rfl
  | false =>
    rw [if_neg (by decide), readScalar, token_append (List.all_eq_true.1 (by decide)) rfl hrest]
    rfl

end Oxidize.Toml
