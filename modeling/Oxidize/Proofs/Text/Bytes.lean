import Mathlib.Tactic.SplitIfs
import Oxidize.Text.Basic

/-!
# Texts as bytes

`bytes` is a text in UTF-8, each byte as the character with its number. ASCII stays as it is
(`charBytes_of_isAscii`), and all bytes of any other character lie outside of ASCII
(`isAscii_of_mem_charBytes`), so that what looks for characters of ASCII finds them in the bytes of
a text where it finds them in the text.
-/

namespace Oxidize.Text

variable {b c d : Char}

/-- The bytes of a character in UTF-8. -/
def charBytes (c : Char) : Text :=
  (String.utf8EncodeChar c).map Char.ofUInt8

/-- The bytes of a text in UTF-8. -/
def bytes (t : Text) : Text :=
  t.flatMap charBytes

@[simp] theorem bytes_nil : bytes [] = [] := rfl

@[simp] theorem bytes_cons (c : Char) (t : Text) : bytes (c :: t) = charBytes c ++ bytes t := rfl

/-- Whether a character is one byte. -/
def isAscii (c : Char) : Bool :=
  c.toNat < 128

theorem ne_of_isAscii_eq_false (hc : isAscii c = false) (hd : isAscii d) : c ≠ d := by
  rintro rfl
  exact Bool.false_ne_true (hc.symm.trans hd)

theorem toNat_ofUInt8 (b : UInt8) : (Char.ofUInt8 b).toNat = b.toNat :=
  UInt8.toNat_toUInt32 b

theorem charBytes_ne_nil (c : Char) : charBytes c ≠ [] := by
  simp [charBytes]

theorem charBytes_of_isAscii (hc : isAscii c) : charBytes c = [c] := by
  have hlt : c.toNat < 128 := of_decide_eq_true hc
  have hbyte : Char.ofUInt8 (UInt8.ofNat c.toNat) = c := by
    apply Char.toNat_inj.1
    rw [toNat_ofUInt8, UInt8.toNat_ofNat_of_lt' (Nat.lt_trans hlt (by decide))]
  have hencode : String.utf8EncodeChar c = [UInt8.ofNat c.toNat] :=
    if_pos (Nat.le_of_lt_succ hlt)
  rw [charBytes, hencode, List.map_singleton, hbyte]

/-- The highest bit is set in every byte, where a character has more than one. -/
theorem isAscii_of_mem_charBytes (hc : isAscii c = false) (hb : b ∈ charBytes c) :
    isAscii b = false := by
  have hgt : ¬ c.toNat ≤ 127 := fun h => of_decide_eq_false hc (Nat.lt_succ_of_le h)
  have hbyte {n : Nat} (hlo : 128 ≤ n) (hhi : n < 256) :
      isAscii (Char.ofUInt8 (UInt8.ofNat n)) = false := by
    rw [isAscii, toNat_ofUInt8, UInt8.toNat_ofNat_of_lt' hhi]
    exact decide_eq_false (by omega)
  obtain ⟨a, ha, rfl⟩ := List.mem_map.1 hb
  rw [String.utf8EncodeChar] at ha
  simp only [Char.toNat] at hgt
  simp only [hgt, ↓reduceIte] at ha
  split_ifs at ha <;> simp only [List.mem_cons, List.not_mem_nil, or_false] at ha
  · rcases ha with rfl | rfl <;> exact hbyte (by omega) (by omega)
  · rcases ha with rfl | rfl | rfl <;> exact hbyte (by omega) (by omega)
  · rcases ha with rfl | rfl | rfl | rfl <;> exact hbyte (by omega) (by omega)

/-- A character of one byte begins the bytes of a text if it begins the text. -/
theorem head?_bytes_eq_some_iff (hc : isAscii c) (t : Text) :
    (bytes t).head? = some c ↔ t.head? = some c := by
  cases t with
  | nil => rfl
  | cons d t =>
    cases hd : isAscii d with
    | true => rw [bytes_cons, charBytes_of_isAscii hd, List.singleton_append, List.head?_cons,
        List.head?_cons]
    | false =>
      obtain ⟨b, u, hu⟩ := List.exists_cons_of_ne_nil (charBytes_ne_nil d)
      have hb : isAscii b = false := isAscii_of_mem_charBytes hd (hu ▸ List.mem_cons_self)
      have hbc : b ≠ c := ne_of_isAscii_eq_false hb hc
      have hdc : d ≠ c := ne_of_isAscii_eq_false hd hc
      simp [hu, hbc, hdc]

end Oxidize.Text
