import Oxidize.Text.Basic

/-!
# Runs of characters

A `Gap` is white space or nothing, a `Run` is one or more characters of a set. Forms are described
in these terms, with the texts between their named parts. A walk through a text keeps the character
before the place where it stands: the last one of what it has passed (`getLast?_cons_or`).
-/

namespace Oxidize.Text

/-- White space, or nothing. -/
def Gap (t : Text) : Prop :=
  ∀ c ∈ t, isSpace c

/-- One or more characters of a set. -/
def Run (set : Char → Bool) (t : Text) : Prop :=
  t ≠ [] ∧ ∀ c ∈ t, set c

/-- Every character but white space. -/
def isInk (c : Char) : Bool :=
  !isSpace c

/-- A property of all characters of a text is tested on the text, not on all characters there are. -/
instance (priority := high) decidableForallMem {p : Char → Prop} [DecidablePred p]
    (t : List Char) : Decidable (∀ c ∈ t, p c) :=
  List.decidableBAll p t

instance (set : Char → Bool) (t : Text) : Decidable (Run set t) :=
  decidable_of_iff (t ≠ [] ∧ t.all set) (and_congr_right fun _ => List.all_eq_true)

variable {set : Char → Bool} {t : Text}

@[simp] theorem gap_nil : Gap [] := fun _ h => absurd h List.not_mem_nil

theorem Run.gap (h : Run isSpace t) : Gap t :=
  h.2

theorem Gap.not_mem {c : Char} (h : Gap t) (hc : isSpace c = false) : c ∉ t :=
  fun hmem => Bool.false_ne_true (hc ▸ h c hmem)

theorem Run.not_mem {c : Char} (h : Run set t) (hc : set c = false) : c ∉ t :=
  fun hmem => Bool.false_ne_true (hc ▸ h.2 c hmem)

/-- White space is none of some characters of ink. -/
theorem not_mem_of_isSpace {c : Char} {cs : Text} (hcs : ∀ d ∈ cs, isSpace d = false)
    (hc : isSpace c) : c ∉ cs :=
  fun hmem => Bool.false_ne_true ((hcs c hmem).symm.trans hc)

theorem isInk_iff {c : Char} : isInk c ↔ isSpace c = false := by
  rw [isInk, Bool.not_eq_true']

/-- A run begins with a character of its set. -/
theorem Run.set_of_head? (ht : Run set t) (u : Text) : ∀ c ∈ (t ++ u).head?, set c := by
  obtain ⟨c, r, rfl⟩ := List.exists_cons_of_ne_nil ht.1
  rintro _ ⟨rfl⟩
  exact ht.2 c List.mem_cons_self

/-- White space in front of a text that does not begin with any. -/
theorem Gap.eq_nil_of_head {g : Text} (hg : Gap g)
    (hhead : ∀ c ∈ (g ++ t).head?, isSpace c = false) : g = [] := by
  cases g with
  | nil => rfl
  | cons c g => exact absurd (hg c List.mem_cons_self) (Bool.eq_false_iff.1 (hhead c rfl))

/-- White space behind a text that does not end with any. -/
theorem Gap.eq_nil_of_last {g : Text} (hg : Gap g)
    (hlast : ∀ c ∈ (t ++ g).getLast?, isSpace c = false) : g = [] := by
  rcases g.eq_nil_or_concat with rfl | ⟨g, c, rfl⟩
  · rfl
  · have hc : isSpace c := hg c (by simp)
    exact absurd hc (Bool.eq_false_iff.1 (hlast c (by simp)))

theorem isBlank_iff_gap : t.isBlank ↔ Gap t := by
  simp [isBlank, Gap]

/-- The longest run of characters of a set ends where the first other character stands. -/
theorem takeWhile_append {u : Text} (ht : ∀ c ∈ t, set c) (hu : ∀ c ∈ u.head?, set c = false) :
    (t ++ u).takeWhile set = t := by
  rw [List.takeWhile_append_of_pos ht]
  cases u with
  | nil => simp
  | cons c u => simp [hu c rfl]

/-- A text is cut in one way only at the end of its first run. -/
theorem run_append_inj {t' u u' : Text} (ht : ∀ c ∈ t, set c) (ht' : ∀ c ∈ t', set c)
    (hu : ∀ c ∈ u.head?, set c = false) (hu' : ∀ c ∈ u'.head?, set c = false)
    (h : t ++ u = t' ++ u') : t = t' ∧ u = u' := by
  have hrun : t = t' := by
    rw [← takeWhile_append ht hu, h, takeWhile_append ht' hu']
  rw [hrun] at h
  exact ⟨hrun, List.append_cancel_left h⟩

/-- The character before a place, behind a text that began with `c`. -/
theorem getLast?_cons_or (c : Char) (t : Text) (before : Option Char) :
    (c :: t).getLast?.or before = t.getLast?.or (some c) := by
  rw [List.getLast?_cons, Option.some_or, Option.or_some]

end Oxidize.Text
