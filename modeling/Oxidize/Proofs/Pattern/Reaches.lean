import Oxidize.Proofs.Pattern.Reads

/-!
# Where a pattern can end

`p.Reaches s t` says that one of the ways to match `p` at `s` ends at `t`. It is the partner of
`Reads`, for showing that a pattern matches: a way through a sequence is put together from ways
through its members, and a search finds something if its pattern reaches any place from the start
of the text (`isSome_find?`). A pattern that looks at nothing but the text that it reads (`isLocal`)
gets to the end of this text, wherever it stands (`Reads.reaches`).
-/

namespace Oxidize

namespace Cursor

variable {set : Char → Bool} {u v : Text}

/-- A text that stands here is passed as a whole. -/
theorem pass?_append (t : Text) (before : Option Char) (v : Text) :
    pass? ⟨before, t ++ v⟩ t = some ⟨t.getLast?.or before, v⟩ := by
  induction t generalizing before with
  | nil => rfl
  | cons c t ih => simp only [pass?, List.cons_append, if_true, ih, Text.getLast?_cons_or]

/-- The longest run of characters of a set is passed as a whole. -/
theorem skip_append (hu : ∀ c ∈ u, set c) (hv : ∀ c ∈ v.head?, set c = false)
    (before : Option Char) : skip ⟨before, u ++ v⟩ set = ⟨u.getLast?.or before, v⟩ := by
  rw [skip]
  induction u generalizing before with
  | nil =>
    cases v with
    | nil => rfl
    | cons c v => simp [skipFrom, hv c rfl]
  | cons c u ih =>
    rw [List.forall_mem_cons] at hu
    rw [List.cons_append, skipFrom, if_pos hu.1, Text.getLast?_cons_or]
    exact ih hu.2 (some c)

end Cursor

namespace Pattern

variable {ι : Type} {p q : Pattern ι} {ps : List (Pattern ι)} {s t r : Cursor} {set : Char → Bool}
  {before : Option Char} {u v : Text}

/-- One of the ways to match a pattern at `s` ends at `t`. -/
def Reaches (p : Pattern ι) (s t : Cursor) : Prop :=
  ∃ m ∈ p.ways s, m.stop = t

theorem Reaches.seq (hp : p.Reaches s t) (hq : q.Reaches t r) : (seq p q).Reaches s r := by
  obtain ⟨a, ha, rfl⟩ := hp
  obtain ⟨b, hb, rfl⟩ := hq
  refine ⟨a.follow b, ?_, rfl⟩
  rw [ways, List.mem_flatMap]
  exact ⟨a, ha, List.mem_map_of_mem hb⟩

theorem Reaches.field {name : ι} (hp : p.Reaches s t) : (field name p).Reaches s t := by
  obtain ⟨a, ha, rfl⟩ := hp
  exact ⟨_, List.mem_map_of_mem ha, rfl⟩

theorem Reaches.sequence (hp : p.Reaches s t) (hps : (sequence ps).Reaches t r) :
    (sequence (p :: ps)).Reaches s r :=
  hp.seq hps

theorem reaches_nil (s : Cursor) : (sequence ([] : List (Pattern ι))).Reaches s s :=
  ⟨⟨s, []⟩, List.mem_singleton_self _, rfl⟩

theorem reaches_start (t : Text) : (start : Pattern ι).Reaches ⟨none, t⟩ ⟨none, t⟩ :=
  ⟨⟨⟨none, t⟩, []⟩, List.mem_singleton_self _, rfl⟩

theorem reaches_stop (before : Option Char) :
    (stop : Pattern ι).Reaches ⟨before, []⟩ ⟨before, []⟩ :=
  ⟨⟨⟨before, []⟩, []⟩, List.mem_singleton_self _, rfl⟩

theorem reaches_one {c : Char} (hc : set c) (before : Option Char) (v : Text) :
    (one set : Pattern ι).Reaches ⟨before, c :: v⟩ ⟨some c, v⟩ :=
  ⟨⟨⟨some c, v⟩, []⟩, by simp [ways, hc], rfl⟩

theorem reaches_text (t : Text) (before : Option Char) (v : Text) :
    (text t : Pattern ι).Reaches ⟨before, t ++ v⟩ ⟨t.getLast?.or before, v⟩ :=
  ⟨⟨_, []⟩, by simp [ways, Cursor.pass?_append], rfl⟩

theorem reaches_char (c : Char) (before : Option Char) (v : Text) :
    (text [c] : Pattern ι).Reaches ⟨before, c :: v⟩ ⟨some c, v⟩ :=
  reaches_text [c] before v

/-- A run that cannot give back anything ends where its characters end. -/
theorem reaches_span (hu : ∀ c ∈ u, set c) (hv : ∀ c ∈ v.head?, set c = false) :
    (span set : Pattern ι).Reaches ⟨before, u ++ v⟩ ⟨u.getLast?.or before, v⟩ :=
  ⟨⟨_, []⟩, by simp [ways, Cursor.skip_append hu hv], rfl⟩

theorem reaches_many {g : Greed} (hu : ∀ c ∈ u, set c) :
    (many g set : Pattern ι).Reaches ⟨before, u ++ v⟩ ⟨u.getLast?.or before, v⟩ := by
  have hstop : ⟨u.getLast?.or before, v⟩ ∈ stops g set before (u ++ v) := by
    induction u generalizing before with
    | nil => cases v <;> cases g <;> simp [stops] <;> split <;> simp [arrange]
    | cons c u ih =>
      rw [List.forall_mem_cons] at hu
      have hfurther : ⟨(c :: u).getLast?.or before, v⟩ ∈ stops g set (some c) (u ++ v) := by
        rw [Text.getLast?_cons_or]
        exact ih hu.2
      cases g <;> simp [stops, hu.1, arrange, hfurther]
  exact ⟨⟨_, []⟩, by simpa [ways] using hstop, rfl⟩

/-- Whether a pattern looks at nothing but the text that it reads. -/
def isLocal : Pattern ι → Bool
  | empty | one _ | text _ | many _ _ => true
  | seq p q | alt p q => isLocal p && isLocal q
  | field _ p => isLocal p
  | _ => false

theorem Reads.reaches {fs : List (ι × Text)} (hp : p.isLocal) (h : p.Reads u fs)
    (before : Option Char) (v : Text) :
    p.Reaches ⟨before, u ++ v⟩ ⟨u.getLast?.or before, v⟩ := by
  induction p generalizing u fs before v with
  | empty =>
    obtain ⟨rfl, -⟩ := h
    exact reaches_nil _
  | one set =>
    obtain ⟨⟨c, hc, rfl⟩, -⟩ := h
    exact reaches_one hc before v
  | text t =>
    obtain ⟨rfl, -⟩ := h
    exact reaches_text u before v
  | many g set => exact reaches_many h.1
  | seq p q ihp ihq =>
    rw [isLocal, Bool.and_eq_true] at hp
    obtain ⟨w, x, _, _, ⟨hw, hx⟩, rfl, -⟩ := h
    rw [List.append_assoc, List.getLast?_append, Option.or_assoc]
    exact (ihp hp.1 hw before (x ++ v)).seq (ihq hp.2 hx _ v)
  | alt p q ihp ihq =>
    rw [isLocal, Bool.and_eq_true] at hp
    rcases h with h | h
    · obtain ⟨a, ha, hstop⟩ := ihp hp.1 h before v
      exact ⟨a, List.mem_append_left _ ha, hstop⟩
    · obtain ⟨a, ha, hstop⟩ := ihq hp.2 h before v
      exact ⟨a, List.mem_append_right _ ha, hstop⟩
  | field name p ih =>
    obtain ⟨gs, h, -⟩ := h
    exact (ih hp h before v).field
  | _ => cases hp

/-- A pattern that reaches a place from somewhere in a text is found in it. -/
theorem isSome_findFrom? (h : p.Reaches ⟨u.getLast?.or before, v⟩ s) :
    (p.findFrom? before (u ++ v)).isSome := by
  induction u generalizing before with
  | nil =>
    obtain ⟨m, hm, -⟩ := h
    have hmatch : (p.matchAt? ⟨before, v⟩).isSome := by
      rw [matchAt?_eq_head?]
      obtain ⟨a, l, hways⟩ := List.exists_cons_of_ne_nil (List.ne_nil_of_mem hm)
      have hbefore : (([] : Text).getLast?.or before) = before := rfl
      rw [hbefore] at hways
      rw [hways]
      rfl
    cases v with
    | nil => exact hmatch
    | cons c v =>
      obtain ⟨m, hm⟩ := Option.isSome_iff_exists.1 hmatch
      simp [findFrom?_cons, hm]
  | cons c u ih =>
    rw [Text.getLast?_cons_or] at h
    rw [List.cons_append, findFrom?_cons]
    cases p.matchAt? ⟨before, c :: (u ++ v)⟩ with
    | some m => rfl
    | none => exact ih h

/-- A pattern that reaches a place from the start of a text is found in it. -/
theorem isSome_find? (h : p.Reaches ⟨none, v⟩ s) : (p.find? v).isSome :=
  isSome_findFrom? (u := []) h

end Pattern

end Oxidize
