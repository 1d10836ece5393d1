import Oxidize.Form.Basic
import Oxidize.Proofs.Pattern.Search

/-!
# Recasting, step by step

`Recasts f x y` says that `f` makes `y` of a text `x` of its shape. A form recasts a line as a whole
(`recasts_of_recast?`) or one piece after the other (`recastAll_preserves`, for a property of the
whole text, and `recastAll_induction`, for one that tells what is written from what is still to be
read).
-/

namespace Oxidize

/-- The form makes `y` of the text `x`. -/
def Form.Recasts (f : Form) (x y : Text) : Prop :=
  ∃ m : Match Field, f.pattern.Reads x m.fields ∧ f.expand m = y

namespace Form

variable {f : Form} {t u : Text}

theorem recasts_of_recast? (hf : f.pattern.isWhole) (h : f.recast? t = some u) :
    f.Recasts t u := by
  rw [recast?, Option.map_eq_some_iff] at h
  obtain ⟨m, hm, rfl⟩ := h
  exact ⟨m, Pattern.reads_of_find? hf hm, rfl⟩

theorem recastAll_induction (Inv : Text → Text → Prop)
    (keep : ∀ done c r, Inv done (c :: r) → Inv (done ++ [c]) r)
    (swap : ∀ done x y r, f.Recasts x y → Inv done (x ++ r) → Inv (done ++ y) r)
    (h : Inv [] t) : Inv (f.recastAll t) [] :=
  Pattern.replaceFrom_induction Inv keep
    (fun done x r m hm => swap done x (f.expand m) r ⟨m, hm, rfl⟩) h

/-- What a search finds is a piece of the text that the form recasts. -/
theorem exists_recasts_of_find? {m : Match Field} (h : f.pattern.find? t = some m) :
    ∃ a x r, t = a ++ (x ++ r) ∧ f.Recasts x (f.expand m) := by
  obtain ⟨a, x, r, ht, hx⟩ := Pattern.exists_reads_of_find? h
  exact ⟨a, x, r, ht, m, hx, rfl⟩

/-- A form is not found in a text that lacks what stands in all pieces of its shape. -/
theorem find?_eq_none_of_infix {w : Text} (hw : ∀ x y, f.Recasts x y → w <:+: x)
    (ht : ¬ w <:+: t) : f.pattern.find? t = none := by
  refine Option.eq_none_iff_forall_ne_some.2 fun m hm => ht ?_
  obtain ⟨a, x, r, rfl, hx⟩ := exists_recasts_of_find? hm
  exact (hw x (f.expand m) hx).trans ⟨a, r, List.append_assoc a x r⟩

/-- What every single replacement keeps, all of them together keep. -/
theorem recastAll_preserves (Inv : Text → Prop)
    (step : ∀ p x y q, f.Recasts x y → Inv (p ++ (x ++ q)) → Inv (p ++ (y ++ q)))
    (h : Inv t) : Inv (f.recastAll t) := by
  have final : Inv (f.recastAll t ++ []) := by
    refine recastAll_induction (fun done r => Inv (done ++ r)) ?_ ?_ h
    · intro done c r hInv
      simpa using hInv
    · intro done x y r hxy hInv
      simpa using step done x y r hxy hInv
  rwa [List.append_nil] at final

theorem recastAll_eq_self (h : f.pattern.find? t = none) : f.recastAll t = t :=
  Pattern.replaceAll_eq_self h

/-- What every single replacement by one of some forms keeps, the forms one after the other keep. -/
theorem recastWith_preserves (Inv : Text → Prop) {fs : List Form}
    (step : ∀ f ∈ fs, ∀ p x y q, f.Recasts x y → Inv (p ++ (x ++ q)) → Inv (p ++ (y ++ q)))
    (h : Inv t) : Inv (recastWith fs t) := by
  induction fs generalizing t with
  | nil => exact h
  | cons f fs ih =>
    rw [List.forall_mem_cons] at step
    exact ih step.2 (recastAll_preserves Inv step.1 h)

end Form

end Oxidize
