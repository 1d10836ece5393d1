import Oxidize.Proofs.Pattern.Reaches
import Oxidize.Proofs.Pattern.Reads

/-!
# The way that is taken

`p.Takes s t fs` says that `p` has one way only to match at `s`: it ends at `t` and names the parts
`fs`. Patterns without choices take their way, and a sequence of such patterns takes the ways of its
members one after the other. An atomic pattern takes the first of its ways (`takes_atomic`).

Where there is a choice, the first way from which the rest of the pattern matches is taken. For a
lazy run of characters that is the shortest one (`exists_of_runMany_lazy`). A greedy run takes all
that it can if the rest matches behind it (`runMany_greedy_append`), and a lazy repetition goes on
over characters behind which the rest does not match (`runStar_lazy_append`).
-/

namespace Oxidize.Pattern

variable {ι α : Type} {p q : Pattern ι} {ps : List (Pattern ι)} {s t r : Cursor} {m n : Match ι}
  {fs gs : List (ι × Text)} {set : Char → Bool} {before : Option Char} {u v : Text}

/-- There is one way to match `p` at `s`. -/
def Takes (p : Pattern ι) (s t : Cursor) (fs : List (ι × Text)) : Prop :=
  p.ways s = [⟨t, fs⟩]

theorem Takes.matchAt?_eq (h : p.Takes s t fs) : p.matchAt? s = some ⟨t, fs⟩ := by
  rw [matchAt?_eq_head?, h]
  rfl

theorem Takes.run_eq (h : p.Takes s t fs) (k : Cursor → Option (Match ι)) :
    p.run s k = (k t).map (Match.follow ⟨t, fs⟩) := by
  rw [run_eq_findSome?, h, List.findSome?_singleton]

theorem Takes.seq (hp : p.Takes s t fs) (hq : q.Takes t r gs) :
    (seq p q).Takes s r (fs ++ gs) := by
  rw [Takes, ways, hp, List.flatMap_singleton, hq]
  rfl

theorem Takes.sequence (hp : p.Takes s t fs) (hps : (sequence ps).Takes t r gs) :
    (sequence (p :: ps)).Takes s r (fs ++ gs) :=
  hp.seq hps

theorem Takes.field {last : Option Char} (name : ι)
    (hp : p.Takes ⟨before, u ++ v⟩ ⟨last, v⟩ []) :
    (field name p).Takes ⟨before, u ++ v⟩ ⟨last, v⟩ [(name, u)] := by
  have hpart : Cursor.upTo ⟨before, u ++ v⟩ ⟨last, v⟩ = u := Cursor.upTo_eq rfl
  rw [Takes, ways, hp, List.map_singleton, hpart]
  rfl

theorem takes_nil (s : Cursor) : (Pattern.sequence ([] : List (Pattern ι))).Takes s s [] :=
  rfl

theorem takes_start (t : Text) : (start : Pattern ι).Takes ⟨none, t⟩ ⟨none, t⟩ [] :=
  rfl

theorem takes_stop (before : Option Char) : (stop : Pattern ι).Takes ⟨before, []⟩ ⟨before, []⟩ [] :=
  rfl

theorem takes_edge (h : s.atEdge) : (edge : Pattern ι).Takes s s [] := by
  rw [Takes, ways, if_pos h]

theorem takes_text (t : Text) (before : Option Char) (v : Text) :
    (text t : Pattern ι).Takes ⟨before, t ++ v⟩ ⟨t.getLast?.or before, v⟩ [] := by
  rw [Takes, ways, Cursor.pass?_append]
  rfl

theorem takes_span (hu : ∀ c ∈ u, set c) (hv : ∀ c ∈ v.head?, set c = false) :
    (span set : Pattern ι).Takes ⟨before, u ++ v⟩ ⟨u.getLast?.or before, v⟩ [] := by
  rw [Takes, ways, Cursor.skip_append hu hv]

theorem takes_chars (hu : Text.Run set u) (hv : ∀ c ∈ v.head?, set c = false) :
    (chars set : Pattern ι).Takes ⟨before, u ++ v⟩ ⟨u.getLast?.or before, v⟩ [] := by
  obtain ⟨c, u, rfl⟩ := List.exists_cons_of_ne_nil hu.1
  obtain ⟨hc, hu⟩ := List.forall_mem_cons.1 hu.2
  have hone : (one set : Pattern ι).Takes ⟨before, c :: (u ++ v)⟩ ⟨some c, u ++ v⟩ [] := by
    simp [Takes, ways, hc]
  rw [Text.getLast?_cons_or]
  exact hone.seq (takes_span hu hv)

theorem takes_atomic (h : p.matchAt? s = some ⟨t, fs⟩) : (atomic p).Takes s t fs := by
  rw [matchAt?_eq_head?] at h
  rw [Takes, ways, List.take_one, h]
  rfl

/-! ### Where the rest decides -/

/-- A success of a pattern and of what follows it comes from one of the ways of the pattern. -/
theorem exists_of_run {k : Cursor → Option (Match ι)} (h : p.run s k = some m) :
    ∃ a ∈ p.ways s, ∃ n, k a.stop = some n ∧ m = a.follow n := by
  rw [run_eq_findSome?] at h
  obtain ⟨a, ha, h⟩ := List.exists_of_findSome?_eq_some h
  obtain ⟨n, hn, rfl⟩ := Option.map_eq_some_iff.1 h
  exact ⟨a, ha, n, hn, rfl⟩

/-- A lazy run of characters stops at the first place behind which the rest matches. -/
theorem exists_of_runMany_lazy {k : Cursor → Option α} {t : Text} {a : α}
    (h : runMany .lazy set k before t = some a) :
    ∃ u r, t = u ++ r ∧ k ⟨u.getLast?.or before, r⟩ = some a ∧
      ∀ v w, u = v ++ w → w ≠ [] → k ⟨v.getLast?.or before, w ++ r⟩ = none := by
  have stops {before : Option Char} {t : Text} (h : k ⟨before, t⟩ = some a) :
      ∃ u r, t = u ++ r ∧ k ⟨u.getLast?.or before, r⟩ = some a ∧
        ∀ v w, u = v ++ w → w ≠ [] → k ⟨v.getLast?.or before, w ++ r⟩ = none := by
    refine ⟨[], t, rfl, h, fun v w hvw hw => absurd ?_ hw⟩
    exact (List.append_eq_nil_iff.1 hvw.symm).2
  induction t generalizing before with
  | nil => exact stops h
  | cons c t ih =>
    rw [runMany] at h
    split at h
    · rw [orElse, Option.orElse_eq_orElse, Option.orElse_eq_or, Option.or_eq_some_iff] at h
      rcases h with h | ⟨hnone, h⟩
      · exact stops h
      · obtain ⟨u, r, rfl, hk, hshortest⟩ := ih h
        refine ⟨c :: u, r, rfl, by rwa [Text.getLast?_cons_or], ?_⟩
        intro v w hvw hw
        rcases List.cons_eq_append_iff.1 hvw with ⟨rfl, rfl⟩ | ⟨v, rfl, rfl⟩
        · exact hnone
        · rw [Text.getLast?_cons_or]
          exact hshortest v w rfl hw
    · exact stops h

/-- A part that goes on to a text ends where that text stands for the first time. -/
theorem exists_of_matchAt?_until {name : ι} {w : Text} (hw : w ≠ [])
    (h : (sequence [field name (many .lazy set), text w]).matchAt? s = some m) :
    ∃ u r, s.rest = u ++ (w ++ r) ∧ ¬ w <:+: u ∧ m.fields = [(name, u)] := by
  rw [matchAt?, run_sequence_cons, run_field, run_many] at h
  obtain ⟨u, r, hu, hend, hshortest⟩ := exists_of_runMany_lazy h
  rw [run_sequence_cons, run_text, Option.map_eq_some_iff] at hend
  obtain ⟨n, hn, rfl⟩ := hend
  obtain ⟨t, ht, hn⟩ := Option.bind_eq_some_iff.1 hn
  obtain rfl := Option.some.inj hn
  have hr : r = w ++ t.rest := (Cursor.passes_of_pass? ht).rest_eq
  refine ⟨u, t.rest, hr ▸ hu, ?_, by rw [Cursor.upTo_eq hu]; rfl⟩
  rintro ⟨x, y, rfl⟩
  -- An occurrence inside of the part would end it earlier.
  have hearlier := hshortest x (w ++ y) (List.append_assoc x w y) (by simp [hw])
  rw [List.append_assoc, run_sequence_cons, run_text, Cursor.pass?_append] at hearlier
  cases hearlier

/-- A greedy run of characters takes all that it can, if the rest matches behind it. -/
theorem runMany_greedy_append {k : Cursor → Option α} {a : α} (hu : ∀ c ∈ u, set c)
    (hv : ∀ c ∈ v.head?, set c = false) (h : k ⟨u.getLast?.or before, v⟩ = some a) :
    runMany .greedy set k before (u ++ v) = some a := by
  induction u generalizing before with
  | nil =>
    cases v with
    | nil => exact h
    | cons c v => rwa [List.nil_append, runMany, if_neg (Bool.eq_false_iff.1 (hv c rfl))]
  | cons c u ih =>
    obtain ⟨hc, hu⟩ := List.forall_mem_cons.1 hu
    rw [Text.getLast?_cons_or] at h
    rw [List.cons_append, runMany, if_pos hc, orElse, ih hu h]
    rfl

section Star

variable {body : Cursor → (Cursor → Option α) → Option α} {k : Cursor → Option α} {a : α}

/-- A lazy repetition stops where the rest matches. -/
theorem runStar_lazy_of_some (h : k s = some a) (n : Nat) :
    runStar body .lazy k n s = some a := by
  cases n with
  | zero => exact h
  | succ n =>
    rw [runStar, orElse, h]
    rfl

/-- A lazy repetition goes around once more where the rest does not match. -/
theorem runStar_lazy_of_none (h : k s = none) (n : Nat) :
    runStar body .lazy k (n + 1) s = body s (runStar body .lazy k n) := by
  rw [runStar, orElse, h]
  rfl

end Star

/-- A lazy repetition goes on over single characters behind which the rest does not match. -/
theorem runStar_lazy_append {k : Cursor → Option (Match ι)} (hu : ∀ c ∈ u, set c)
    (hk : ∀ c ∈ u, ∀ before r, k ⟨before, c :: r⟩ = none) (n : Nat)
    (h : runStar (run (alt (one set) q)) .lazy k n ⟨u.getLast?.or before, v⟩ = some m) :
    runStar (run (alt (one set) q)) .lazy k (u.length + n) ⟨before, u ++ v⟩ = some m := by
  induction u generalizing before with
  | nil => rwa [List.length_nil, Nat.zero_add]
  | cons c u ih =>
    obtain ⟨hc, hu⟩ := List.forall_mem_cons.1 hu
    obtain ⟨hstart, hk⟩ := List.forall_mem_cons.1 hk
    rw [Text.getLast?_cons_or] at h
    rw [List.length_cons, Nat.add_right_comm, List.cons_append,
      runStar_lazy_of_none (hstart before (u ++ v)), run_alt, run_one_cons, if_pos hc,
      ih hu hk h]
    rfl

end Oxidize.Pattern
