import Oxidize.Proofs.Pattern.Search

/-!
# The matches that are replaced

`found` lists the matches that `replaceAll` replaces, from left to right. It walks through the text
as `replaceFrom` does. `Replaces` forgets where the walk stands: characters are kept and pieces that
the pattern reads give way to expansions. What replacing does to a text, told from the matches that
it found, then is an induction on `Replaces` (`replaces_replaceAll`).
-/

namespace Oxidize.Pattern

variable {ι : Type} {p : Pattern ι} {expand : Match ι → Text} {before : Option Char} {m : Match ι}

/-- The matches that are replaced in a text behind the character `before`, where the first `skip`
characters belong to a match that is already replaced. -/
def foundFrom (p : Pattern ι) (skip : Nat) (before : Option Char) : Text → List (Match ι)
  | [] => []
  | c :: r =>
    match skip with
    | skip + 1 => foundFrom p skip (some c) r
    | 0 =>
      match p.matchAt? ⟨before, c :: r⟩ with
      | none => foundFrom p 0 (some c) r
      | some m =>
        match r.length + 1 - m.stop.rest.length with
        | 0 => foundFrom p 0 (some c) r
        | taken + 1 => m :: foundFrom p taken (some c) r

/-- The matches that are replaced in a text. -/
def found (p : Pattern ι) (t : Text) : List (Match ι) :=
  p.foundFrom 0 none t

/-- A text, what replacing makes of it, and the matches that give way. -/
inductive Replaces (p : Pattern ι) (expand : Match ι → Text) : Text → Text → List (Match ι) → Prop
  | nil : Replaces p expand [] [] []
  | keep {t u : Text} {ms : List (Match ι)} (c : Char) (h : Replaces p expand t u ms) :
      Replaces p expand (c :: t) (c :: u) ms
  | swap {x t u : Text} {m : Match ι} {ms : List (Match ι)} (hx : p.Reads x m.fields)
      (h : Replaces p expand t u ms) : Replaces p expand (x ++ t) (expand m ++ u) (m :: ms)

theorem foundFrom_length_append (u r : Text) :
    p.foundFrom u.length before (u ++ r) = p.foundFrom 0 (u.getLast?.or before) r := by
  induction u generalizing before with
  | nil => rfl
  | cons c u ih =>
    rw [Text.getLast?_cons_or]
    exact ih

theorem foundFrom_cons_of_none {c : Char} {r : Text} (h : p.matchAt? ⟨before, c :: r⟩ = none) :
    p.foundFrom 0 before (c :: r) = p.foundFrom 0 (some c) r := by
  rw [foundFrom, h]

theorem foundFrom_append_of_some {x r : Text} (hx : x ≠ [])
    (h : p.matchAt? ⟨before, x ++ r⟩ = some m) (hr : m.stop.rest = r) :
    p.foundFrom 0 before (x ++ r) = m :: p.foundFrom 0 (x.getLast?.or before) r := by
  obtain ⟨c, u, rfl⟩ := List.exists_cons_of_ne_nil hx
  have taken : (u ++ r).length + 1 - r.length = u.length + 1 := by
    rw [List.length_append]
    omega
  rw [List.cons_append] at h ⊢
  rw [foundFrom, h]
  simp only [hr, taken]
  rw [foundFrom_length_append, Text.getLast?_cons_or]

theorem replaces_replaceFrom (p : Pattern ι) (expand : Match ι → Text) (before : Option Char)
    (t : Text) :
    p.Replaces expand t (p.replaceFrom expand 0 before t) (p.foundFrom 0 before t) := by
  induction hn : t.length using Nat.strongRecOn generalizing before t with
  | _ n ih =>
    cases t with
    | nil => exact .nil
    | cons c r =>
      have further := ih r.length (by simp [← hn]) (some c) r rfl
      cases hm : p.matchAt? ⟨before, c :: r⟩ with
      | none =>
        rw [replaceFrom_cons_of_none hm, foundFrom_cons_of_none hm]
        exact .keep c further
      | some m =>
        obtain ⟨x, hx, hreads⟩ := exists_reads_of_matchAt? hm
        cases x with
        | nil =>
          -- An empty match skips nothing and keeps its character.
          have hlen : r.length + 1 - m.stop.rest.length = 0 := by
            rw [List.nil_append] at hx
            simp [← hx]
          rw [replaceFrom, foundFrom, hm]
          simp only [hlen]
          exact .keep c further
        | cons d u =>
          rw [hx] at hm ⊢
          rw [replaceFrom_append_of_some (List.cons_ne_nil d u) hm rfl,
            foundFrom_append_of_some (List.cons_ne_nil d u) hm rfl]
          refine .swap hreads (ih m.stop.rest.length ?_ _ _ rfl)
          have := congrArg List.length hx
          simp only [List.length_cons, List.length_append] at this hn
          omega

theorem replaces_replaceAll (p : Pattern ι) (expand : Match ι → Text) (t : Text) :
    p.Replaces expand t (p.replaceAll expand t) (p.found t) :=
  replaces_replaceFrom p expand none t

end Oxidize.Pattern
