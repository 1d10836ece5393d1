import Oxidize.Proofs.Pattern.Reads

/-!
# Replacing, match by match

`replaceFrom` walks through a text and keeps a count of the characters to skip. Here are the three
equations that do without the count: a place without a match keeps its character, a match gives way
to its expansion, a text without matches stays. Together they describe the walk as a sequence of
single replacements, and `replaceFrom_induction` carries an invariant along it.

A pattern is `Solid` if it reads no empty text. For such patterns every match that a search finds is
replaced (`replaceFrom_of_findFrom?`).
-/

namespace Oxidize.Pattern

variable {ι : Type} {p : Pattern ι} {expand : Match ι → Text} {before : Option Char} {m : Match ι}

/-- No text that the pattern reads is empty. -/
def Solid (p : Pattern ι) : Prop :=
  ∀ u fs, p.Reads u fs → u ≠ []

theorem replaceFrom_length_append (u r : Text) :
    p.replaceFrom expand u.length before (u ++ r) =
      p.replaceFrom expand 0 (u.getLast?.or before) r := by
  induction u generalizing before with
  | nil => rfl
  | cons c u ih =>
    rw [List.length_cons, List.cons_append, replaceFrom_skip, ih, Text.getLast?_cons_or]

theorem replaceFrom_cons_of_none {c : Char} {r : Text}
    (h : p.matchAt? ⟨before, c :: r⟩ = none) :
    p.replaceFrom expand 0 before (c :: r) = c :: p.replaceFrom expand 0 (some c) r := by
  rw [replaceFrom, h]

theorem replaceFrom_append_of_some {x r : Text} (hx : x ≠ [])
    (h : p.matchAt? ⟨before, x ++ r⟩ = some m) (hr : m.stop.rest = r) :
    p.replaceFrom expand 0 before (x ++ r) =
      expand m ++ p.replaceFrom expand 0 (x.getLast?.or before) r := by
  obtain ⟨c, u, rfl⟩ := List.exists_cons_of_ne_nil hx
  have taken : (u ++ r).length + 1 - r.length = u.length + 1 := by
    rw [List.length_append]
    omega
  rw [List.cons_append] at h ⊢
  rw [replaceFrom, h]
  simp only [hr, taken]
  rw [replaceFrom_length_append, Text.getLast?_cons_or]

theorem replaceFrom_eq_self {t : Text} (h : p.findFrom? before t = none) :
    p.replaceFrom expand 0 before t = t := by
  induction t generalizing before with
  | nil => rfl
  | cons c r ih =>
    rw [findFrom?_cons, Option.orElse_eq_orElse, Option.orElse_eq_or, Option.or_eq_none_iff] at h
    rw [replaceFrom_cons_of_none h.1, ih h.2]

theorem replaceAll_eq_self {t : Text} (h : p.find? t = none) : p.replaceAll expand t = t :=
  replaceFrom_eq_self h

/-- The match at a place is empty, or it reads the text up to where it ends. -/
theorem exists_reads_of_matchAt? {t : Text} (h : p.matchAt? ⟨before, t⟩ = some m) :
    ∃ x, t = x ++ m.stop.rest ∧ p.Reads x m.fields := by
  obtain ⟨x, hx, hreads⟩ := exists_reads_of_mem_ways (mem_ways_of_matchAt? h)
  exact ⟨x, hx.rest_eq, hreads⟩

/-- What a search finds, a pattern reads somewhere in the text. -/
theorem exists_reads_of_find? {t : Text} (h : p.find? t = some m) :
    ∃ a x r, t = a ++ (x ++ r) ∧ p.Reads x m.fields := by
  obtain ⟨a, b, rfl, hab⟩ := exists_matchAt?_of_findFrom? h
  obtain ⟨x, rfl, hreads⟩ := exists_reads_of_matchAt? hab
  exact ⟨a, x, m.stop.rest, rfl, hreads⟩

/-- An invariant of the walk: `done` is what is written so far, `t` what is still to be read. -/
theorem replaceFrom_induction (Inv : Text → Text → Prop)
    (keep : ∀ done c r, Inv done (c :: r) → Inv (done ++ [c]) r)
    (swap : ∀ done x r m, p.Reads x m.fields → Inv done (x ++ r) → Inv (done ++ expand m) r)
    {done t : Text} (h : Inv done t) : Inv (done ++ p.replaceFrom expand 0 before t) [] := by
  induction hn : t.length using Nat.strongRecOn generalizing done t before with
  | _ n ih =>
    cases t with
    | nil => simpa using h
    | cons c r =>
      have kept : p.replaceFrom expand 0 before (c :: r) = c :: p.replaceFrom expand 0 (some c) r →
          Inv (done ++ p.replaceFrom expand 0 before (c :: r)) [] := by
        intro heq
        simpa [heq] using ih r.length (by simp [← hn]) (keep done c r h) rfl
      cases hm : p.matchAt? ⟨before, c :: r⟩ with
      | none => exact kept (replaceFrom_cons_of_none hm)
      | some m =>
        obtain ⟨x, hx, hreads⟩ := exists_reads_of_matchAt? hm
        cases x with
        | nil =>
          -- An empty match skips nothing and keeps its character.
          have hlen : r.length + 1 - m.stop.rest.length = 0 := by
            rw [List.nil_append] at hx
            simp [← hx]
          apply kept
          rw [replaceFrom, hm]
          simp only [hlen]
        | cons d u =>
          rw [hx] at h hm ⊢
          rw [replaceFrom_append_of_some (List.cons_ne_nil d u) hm rfl, ← List.append_assoc]
          refine ih m.stop.rest.length ?_ (swap done _ _ m hreads h) rfl
          have := congrArg List.length hx
          simp only [List.length_cons, List.length_append] at this hn
          omega

theorem replaceFrom_of_matchAt? (expand : Match ι → Text) (hp : p.Solid) {t : Text}
    (h : p.matchAt? ⟨before, t⟩ = some m) :
    ∃ x r, t = x ++ r ∧ p.Reads x m.fields ∧
      p.replaceFrom expand 0 before t =
        expand m ++ p.replaceFrom expand 0 (x.getLast?.or before) r := by
  obtain ⟨x, rfl, hreads⟩ := exists_reads_of_matchAt? h
  exact ⟨x, m.stop.rest, rfl, hreads, replaceFrom_append_of_some (hp _ _ hreads) h rfl⟩

/-- The first match of a search is replaced, and the walk goes on behind it. -/
theorem replaceFrom_of_findFrom? (expand : Match ι → Text) (hp : p.Solid) {t : Text}
    (h : p.findFrom? before t = some m) :
    ∃ a x r, t = a ++ (x ++ r) ∧ p.Reads x m.fields ∧
      p.replaceFrom expand 0 before t =
        a ++ (expand m ++ p.replaceFrom expand 0 ((a ++ x).getLast?.or before) r) := by
  induction t generalizing before with
  | nil =>
    obtain ⟨x, hx, hreads⟩ := exists_reads_of_matchAt? h
    exact absurd (List.append_eq_nil_iff.1 hx.symm).1 (hp _ _ hreads)
  | cons c r ih =>
    rw [findFrom?_cons, Option.orElse_eq_orElse, Option.orElse_eq_or, Option.or_eq_some_iff] at h
    rcases h with h | ⟨hnone, h⟩
    · obtain ⟨x, r', hx, hreads, heq⟩ := replaceFrom_of_matchAt? expand hp h
      exact ⟨[], x, r', hx, hreads, heq⟩
    · obtain ⟨a, x, r', rfl, hreads, heq⟩ := ih h
      refine ⟨c :: a, x, r', rfl, hreads, ?_⟩
      rw [replaceFrom_cons_of_none hnone, heq, List.cons_append, List.cons_append,
        Text.getLast?_cons_or]

end Oxidize.Pattern
