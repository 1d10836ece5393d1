import Oxidize.Proofs.Pattern.Ways
import Oxidize.Proofs.Text.Run

/-!
# What a pattern reads

`Reads p u fs` says that the text `u` has the shape that `p` describes, with `fs` as the texts of
its named parts. The relation knows no place: what stands around `u`, and which of several ways is
the best one, is left out. Every way to match reads the text between its two ends
(`exists_reads_of_mem_ways`), so that what a match can be follows from the shape of its text.

* `Cursor.Passes`, the step from one place to another over a text;
* `Reads`, by recursion on the pattern;
* `exists_reads_of_mem_ways` for one place, `reads_of_find?` for a search;
* `isPlain`, patterns without named parts, and what sequences of patterns read, member by member;
* `isWhole`, patterns that only match a whole text.
-/

namespace Oxidize

/-! ### Places -/

/-- A place `t` that is reached from `s` over the text `u`. -/
structure Cursor.Passes (s : Cursor) (u : Text) (t : Cursor) : Prop where
  rest_eq : s.rest = u ++ t.rest
  before_eq : t.before = u.getLast?.or s.before

namespace Cursor

variable {s t r : Cursor} {u v : Text}

theorem Passes.refl (s : Cursor) : s.Passes [] s :=
  ⟨rfl, rfl⟩

theorem Passes.trans (h : s.Passes u t) (h' : t.Passes v r) : s.Passes (u ++ v) r := by
  refine ⟨?_, ?_⟩
  · rw [h.rest_eq, h'.rest_eq, List.append_assoc]
  · rw [h'.before_eq, h.before_eq, List.getLast?_append, Option.or_assoc]

theorem Passes.one (before : Option Char) (c : Char) (r : Text) :
    Passes ⟨before, c :: r⟩ [c] ⟨some c, r⟩ :=
  ⟨rfl, rfl⟩

theorem upTo_eq (h : s.rest = u ++ t.rest) : s.upTo t = u := by
  simp [upTo, h]

theorem Passes.upTo_eq (h : s.Passes u t) : s.upTo t = u :=
  Cursor.upTo_eq h.rest_eq

theorem passes_of_pass? (h : s.pass? u = some t) : s.Passes u t := by
  induction u generalizing s with
  | nil =>
    rw [pass?, Option.some.injEq] at h
    exact h ▸ Passes.refl s
  | cons d u ih =>
    rcases s with ⟨before, _ | ⟨c, r⟩⟩
    · simp [pass?] at h
    · simp only [pass?] at h
      split at h
      · rename_i hcd
        exact hcd ▸ (Passes.one before c r).trans (ih h)
      · cases h

theorem passes_skipFrom (set : Char → Bool) (before : Option Char) (t : Text) :
    ∃ u, (∀ c ∈ u, set c) ∧ Passes ⟨before, t⟩ u (skipFrom set before t) := by
  induction t generalizing before with
  | nil => exact ⟨[], by simp, Passes.refl _⟩
  | cons c r ih =>
    rw [skipFrom]
    split
    · rename_i hc
      obtain ⟨u, hu, hpass⟩ := ih (some c)
      exact ⟨c :: u, List.forall_mem_cons.2 ⟨hc, hu⟩, (Passes.one before c r).trans hpass⟩
    · exact ⟨[], by simp, Passes.refl _⟩

end Cursor

namespace Pattern

variable {ι : Type}

/-- What a repetition reads: any number of texts that its body reads. -/
inductive Repeated (R : Text → List (ι × Text) → Prop) : Text → List (ι × Text) → Prop
  | nil : Repeated R [] []
  | cons {u v : Text} {fs gs : List (ι × Text)} (first : R u fs) (further : Repeated R v gs) :
      Repeated R (u ++ v) (fs ++ gs)

/-- The texts that a pattern reads, with the texts of its named parts. -/
def Reads : Pattern ι → Text → List (ι × Text) → Prop
  | empty, u, fs => u = [] ∧ fs = []
  | one set, u, fs => (∃ c, set c ∧ u = [c]) ∧ fs = []
  | text t, u, fs => u = t ∧ fs = []
  | span set, u, fs => (∀ c ∈ u, set c) ∧ fs = []
  | many _ set, u, fs => (∀ c ∈ u, set c) ∧ fs = []
  | seq p q, u, fs =>
    ∃ v w gs hs, (Reads p v gs ∧ Reads q w hs) ∧ u = v ++ w ∧ fs = gs ++ hs
  | alt p q, u, fs => Reads p u fs ∨ Reads q u fs
  | star _ p, u, fs => Repeated (Reads p) u fs
  | atomic p, u, fs => Reads p u fs
  | field name p, u, fs => ∃ gs, Reads p u gs ∧ fs = gs ++ [(name, u)]
  | start, u, fs => u = [] ∧ fs = []
  | stop, u, fs => u = [] ∧ fs = []
  | edge, u, fs => u = [] ∧ fs = []

/-! ### Every way to match reads its text -/

variable {s : Cursor} {m : Match ι} {p q : Pattern ι}

theorem mem_arrange {α : Type} {g : Greed} {a : α} {further here : List α} :
    a ∈ arrange g further here ↔ a ∈ further ∨ a ∈ here := by
  cases g <;> simp [arrange, or_comm]

theorem passes_of_mem_stops {g : Greed} {set : Char → Bool} {before : Option Char} {t : Text}
    {stop : Cursor} (h : stop ∈ stops g set before t) :
    ∃ u, (∀ c ∈ u, set c) ∧ Cursor.Passes ⟨before, t⟩ u stop := by
  have none_passed : ∀ {t}, stop = ⟨before, t⟩ →
      ∃ u, (∀ c ∈ u, set c) ∧ Cursor.Passes ⟨before, t⟩ u stop := by
    rintro t rfl
    exact ⟨[], by simp, Cursor.Passes.refl _⟩
  induction t generalizing before with
  | nil => exact none_passed (by simpa [stops] using h)
  | cons c r ih =>
    rw [stops] at h
    split at h
    · rename_i hc
      rcases mem_arrange.1 h with h | h
      · obtain ⟨u, hu, hpass⟩ := ih h (by
          rintro t rfl
          exact ⟨[], by simp, Cursor.Passes.refl _⟩)
        exact ⟨c :: u, List.forall_mem_cons.2 ⟨hc, hu⟩,
          (Cursor.Passes.one before c r).trans hpass⟩
      · exact none_passed (by simpa using h)
    · exact none_passed (by simpa using h)

theorem mem_ways_seq :
    m ∈ (seq p q).ways s ↔ ∃ a ∈ p.ways s, ∃ b ∈ q.ways a.stop, m = a.follow b := by
  simp [ways, eq_comm]

theorem mem_ways_field {name : ι} :
    m ∈ (field name p).ways s ↔
      ∃ a ∈ p.ways s, m = ⟨a.stop, a.fields ++ [(name, s.upTo a.stop)]⟩ := by
  simp [ways, eq_comm]

theorem repeated_of_mem_rounds {body : Cursor → List (Match ι)}
    {R : Text → List (ι × Text) → Prop}
    (h : ∀ {s m}, m ∈ body s → ∃ u, s.Passes u m.stop ∧ R u m.fields) {g : Greed} {n : Nat}
    (hm : m ∈ rounds body g n s) : ∃ u, s.Passes u m.stop ∧ Repeated R u m.fields := by
  induction n generalizing s m with
  | zero =>
    rw [rounds, List.mem_singleton] at hm
    exact ⟨[], hm ▸ Cursor.Passes.refl s, hm ▸ .nil⟩
  | succ n ih =>
    rw [rounds] at hm
    rcases mem_arrange.1 hm with hm | hm
    · simp only [List.mem_flatMap, List.mem_map] at hm
      obtain ⟨a, ha, b, hb, rfl⟩ := hm
      obtain ⟨u, hu, hR⟩ := h ha
      obtain ⟨v, hv, hRs⟩ := ih hb
      exact ⟨u ++ v, hu.trans hv, .cons hR hRs⟩
    · rw [List.mem_singleton] at hm
      exact ⟨[], hm ▸ Cursor.Passes.refl s, hm ▸ .nil⟩

/-- A way to match passes over a text that the pattern reads. -/
theorem exists_reads_of_mem_ways (h : m ∈ p.ways s) :
    ∃ u, s.Passes u m.stop ∧ p.Reads u m.fields := by
  induction p generalizing s m with
  | empty =>
    obtain rfl : m = ⟨s, []⟩ := by simpa [ways] using h
    exact ⟨[], .refl s, rfl, rfl⟩
  | one set =>
    rcases s with ⟨before, _ | ⟨c, r⟩⟩
    · simp [ways] at h
    · simp only [ways] at h
      split at h
      · rename_i hc
        obtain rfl : m = _ := by simpa using h
        exact ⟨[c], .one before c r, ⟨c, hc, rfl⟩, rfl⟩
      · simp at h
  | text t =>
    obtain ⟨u, hu, rfl⟩ : ∃ u, s.pass? t = some u ∧ ⟨u, []⟩ = m := by simpa [ways] using h
    exact ⟨t, Cursor.passes_of_pass? hu, rfl, rfl⟩
  | span set =>
    obtain rfl : m = ⟨s.skip set, []⟩ := by simpa [ways] using h
    obtain ⟨u, hu, hpass⟩ := Cursor.passes_skipFrom set s.before s.rest
    exact ⟨u, hpass, hu, rfl⟩
  | many g set =>
    obtain ⟨stop, hstop, rfl⟩ : ∃ u ∈ stops g set s.before s.rest, ⟨u, []⟩ = m := by
      simpa [ways] using h
    obtain ⟨u, hu, hpass⟩ := passes_of_mem_stops hstop
    exact ⟨u, hpass, hu, rfl⟩
  | seq p q ihp ihq =>
    obtain ⟨a, ha, b, hb, rfl⟩ := mem_ways_seq.1 h
    obtain ⟨u, hu, hp⟩ := ihp ha
    obtain ⟨v, hv, hq⟩ := ihq hb
    exact ⟨u ++ v, hu.trans hv, u, v, a.fields, b.fields, ⟨hp, hq⟩, rfl, rfl⟩
  | alt p q ihp ihq =>
    rcases List.mem_append.1 h with h | h
    · obtain ⟨u, hu, hp⟩ := ihp h
      exact ⟨u, hu, .inl hp⟩
    · obtain ⟨u, hu, hq⟩ := ihq h
      exact ⟨u, hu, .inr hq⟩
  | star g p ih => exact repeated_of_mem_rounds ih h
  | atomic p ih => exact ih (List.mem_of_mem_take h)
  | field name p ih =>
    obtain ⟨a, ha, rfl⟩ := mem_ways_field.1 h
    obtain ⟨u, hu, hp⟩ := ih ha
    exact ⟨u, hu, a.fields, hp, by rw [hu.upTo_eq]⟩
  | start | stop | edge =>
    simp only [ways] at h
    split at h
    · obtain rfl : m = ⟨s, []⟩ := by simpa using h
      exact ⟨[], .refl s, rfl, rfl⟩
    · simp at h

/-! ### Named parts -/

variable {u : Text} {fs : List (ι × Text)}

/-- Whether a pattern names no part of its text. -/
def isPlain : Pattern ι → Bool
  | seq p q => isPlain p && isPlain q
  | alt p q => isPlain p && isPlain q
  | star _ p => isPlain p
  | atomic p => isPlain p
  | field _ _ => false
  | _ => true

theorem Repeated.fields_eq_nil {R : Text → List (ι × Text) → Prop}
    (hR : ∀ {u fs}, R u fs → fs = []) (h : Repeated R u fs) : fs = [] := by
  induction h with
  | nil => rfl
  | cons first _ ih => rw [hR first, ih, List.append_nil]

theorem fields_eq_nil_of_reads (hp : p.isPlain) (h : p.Reads u fs) : fs = [] := by
  induction p generalizing u fs with
  | seq p q ihp ihq =>
    rw [isPlain, Bool.and_eq_true] at hp
    obtain ⟨_, _, _, _, ⟨hv, hw⟩, -, rfl⟩ := h
    rw [ihp hp.1 hv, ihq hp.2 hw, List.append_nil]
  | alt p q ihp ihq =>
    rw [isPlain, Bool.and_eq_true] at hp
    exact h.elim (ihp hp.1) (ihq hp.2)
  | star g p ih => exact Repeated.fields_eq_nil (ih hp) h
  | atomic p ih => exact ih hp h
  | field name p => cases hp
  | _ => exact h.2

/-! ### Sequences, piece by piece -/

section Sequences

variable {ps : List (Pattern ι)} {set : Char → Bool}

theorem reads_sequence_nil :
    Reads (sequence ([] : List (Pattern ι))) u fs ↔ u = [] ∧ fs = [] :=
  Iff.rfl

theorem reads_sequence_cons :
    Reads (sequence (p :: ps)) u fs ↔
      ∃ v w gs hs, (Reads p v gs ∧ Reads (sequence ps) w hs) ∧ u = v ++ w ∧ fs = gs ++ hs :=
  Iff.rfl

theorem reads_seq_plain (hp : p.isPlain) :
    Reads (seq p q) u fs ↔ ∃ v w, Reads p v [] ∧ u = v ++ w ∧ Reads q w fs := by
  constructor
  · rintro ⟨v, w, gs, hs, ⟨hv, hw⟩, rfl, rfl⟩
    obtain rfl := fields_eq_nil_of_reads hp hv
    exact ⟨v, w, hv, rfl, hw⟩
  · rintro ⟨v, w, hv, rfl, hw⟩
    exact ⟨v, w, [], fs, ⟨hv, hw⟩, rfl, rfl⟩

theorem reads_sequence_plain (hp : p.isPlain) :
    Reads (sequence (p :: ps)) u fs ↔
      ∃ v w, Reads p v [] ∧ u = v ++ w ∧ Reads (sequence ps) w fs :=
  reads_seq_plain hp

theorem reads_sequence_text {t : Text} :
    Reads (sequence (text t :: ps)) u fs ↔ ∃ w, u = t ++ w ∧ Reads (sequence ps) w fs := by
  rw [reads_sequence_plain rfl]
  constructor
  · rintro ⟨_, w, ⟨rfl, -⟩, h⟩
    exact ⟨w, h⟩
  · rintro ⟨w, h⟩
    exact ⟨t, w, ⟨rfl, rfl⟩, h⟩

theorem reads_sequence_edge : Reads (sequence (edge :: ps)) u fs ↔ Reads (sequence ps) u fs := by
  rw [reads_sequence_plain rfl]
  constructor
  · rintro ⟨_, w, ⟨rfl, -⟩, rfl, h⟩
    exact h
  · exact fun h => ⟨[], u, ⟨rfl, rfl⟩, rfl, h⟩

theorem reads_sequence_field {name : ι} (hp : p.isPlain) :
    Reads (sequence (field name p :: ps)) u fs ↔
      ∃ v w gs, Reads p v [] ∧ u = v ++ w ∧ fs = (name, v) :: gs ∧ Reads (sequence ps) w gs := by
  constructor
  · rintro ⟨v, w, _, hs, ⟨⟨gs, hv, rfl⟩, hw⟩, rfl, rfl⟩
    obtain rfl := fields_eq_nil_of_reads hp hv
    exact ⟨v, w, hs, hv, rfl, rfl, hw⟩
  · rintro ⟨v, w, gs, hv, rfl, rfl, hw⟩
    exact ⟨v, w, [(name, v)], gs, ⟨⟨[], hv, rfl⟩, hw⟩, rfl, rfl⟩

theorem reads_sequence_append {qs : List (Pattern ι)} :
    Reads (sequence (qs ++ ps)) u fs ↔
      ∃ v w gs hs, (Reads (sequence qs) v gs ∧ Reads (sequence ps) w hs) ∧
        u = v ++ w ∧ fs = gs ++ hs := by
  induction qs generalizing u fs with
  | nil =>
    constructor
    · intro h
      exact ⟨[], u, [], fs, ⟨⟨rfl, rfl⟩, h⟩, rfl, rfl⟩
    · rintro ⟨_, _, _, _, ⟨⟨rfl, rfl⟩, h⟩, rfl, rfl⟩
      exact h
  | cons q qs ih =>
    rw [List.cons_append, reads_sequence_cons]
    constructor
    · rintro ⟨v, _, gs, _, ⟨hv, h⟩, rfl, rfl⟩
      obtain ⟨w, z, hs, is, ⟨hw, hz⟩, rfl, rfl⟩ := ih.1 h
      exact ⟨v ++ w, z, gs ++ hs, is, ⟨⟨v, w, gs, hs, ⟨hv, hw⟩, rfl, rfl⟩, hz⟩, by simp, by simp⟩
    · rintro ⟨_, z, _, is, ⟨⟨v, w, gs, hs, ⟨hv, hw⟩, rfl, rfl⟩, hz⟩, rfl, rfl⟩
      exact ⟨v, w ++ z, gs, hs ++ is, ⟨hv, ih.2 ⟨w, z, hs, is, ⟨hw, hz⟩, rfl, rfl⟩⟩, by simp,
        by simp⟩

/-- A sequence inside of another can be read as a part of it. -/
theorem reads_sequence_sequence {qs : List (Pattern ι)} :
    Reads (sequence (sequence qs :: ps)) u fs ↔ Reads (sequence (qs ++ ps)) u fs := by
  rw [reads_sequence_append, reads_sequence_cons]

/-- A sequence with one member reads what its member reads. -/
theorem reads_sequence_singleton : Reads (sequence [p]) u fs ↔ Reads p u fs := by
  rw [reads_sequence_cons]
  constructor
  · rintro ⟨v, _, gs, _, ⟨hv, rfl, rfl⟩, rfl, rfl⟩
    rwa [List.append_nil, List.append_nil]
  · intro h
    exact ⟨u, [], fs, [], ⟨h, rfl, rfl⟩, by simp, by simp⟩

theorem reads_chars : Reads (chars set : Pattern ι) u fs ↔ Text.Run set u ∧ fs = [] := by
  constructor
  · rintro ⟨_, w, _, _, ⟨⟨⟨c, hc, rfl⟩, rfl⟩, hw, rfl⟩, rfl, rfl⟩
    exact ⟨⟨List.cons_ne_nil c w, List.forall_mem_cons.2 ⟨hc, hw⟩⟩, rfl⟩
  · rintro ⟨⟨hu, hset⟩, rfl⟩
    obtain ⟨c, w, rfl⟩ := List.exists_cons_of_ne_nil hu
    rw [List.forall_mem_cons] at hset
    exact ⟨[c], w, [], [], ⟨⟨⟨c, hset.1, rfl⟩, rfl⟩, hset.2, rfl⟩, rfl, rfl⟩

theorem reads_oneOrMore {g : Greed} :
    Reads (oneOrMore g set : Pattern ι) u fs ↔ Text.Run set u ∧ fs = [] :=
  reads_chars

end Sequences

/-! ### Patterns of whole texts -/

/-- Whether a pattern matches at the start of a text only. -/
def opensText : Pattern ι → Bool
  | start => true
  | seq p _ => opensText p
  | _ => false

/-- Whether a pattern is the one of the empty text. -/
def isEmpty : Pattern ι → Bool
  | empty => true
  | _ => false

/-- Whether a pattern matches up to the end of a text only. -/
def closesText : Pattern ι → Bool
  | stop => true
  | seq p q => closesText q || (q.isEmpty && closesText p)
  | _ => false

/-- Whether a pattern matches whole texts only. -/
def isWhole (p : Pattern ι) : Bool :=
  p.opensText && p.closesText

theorem before_eq_none_of_opensText (hp : p.opensText) (h : m ∈ p.ways s) : s.before = none := by
  induction p generalizing s m with
  | start =>
    simp only [ways] at h
    split at h
    · rename_i hs
      exact Option.isNone_iff_eq_none.1 hs
    · simp at h
  | seq p q ihp _ =>
    obtain ⟨a, ha, -⟩ := mem_ways_seq.1 h
    exact ihp hp ha
  | _ => cases hp

theorem rest_eq_nil_of_closesText (hp : p.closesText) (h : m ∈ p.ways s) : m.stop.rest = [] := by
  induction p generalizing s m with
  | stop =>
    simp only [ways] at h
    split at h
    · rename_i hs
      obtain rfl : m = ⟨s, []⟩ := by simpa using h
      exact List.isEmpty_iff.1 hs
    · simp at h
  | seq p q ihp ihq =>
    obtain ⟨a, ha, b, hb, rfl⟩ := mem_ways_seq.1 h
    rw [closesText, Bool.or_eq_true, Bool.and_eq_true] at hp
    rcases hp with hq | ⟨hq, hp⟩
    · simpa using ihq hq hb
    · -- The end of the text is asked for before an empty pattern, as at the end of a sequence.
      cases q <;> cases hq
      obtain rfl : b = ⟨a.stop, []⟩ := by simpa [ways] using hb
      simpa using ihp hp ha
  | _ => cases hp

/-! ### Searching -/

theorem mem_ways_of_matchAt? (h : p.matchAt? s = some m) : m ∈ p.ways s := by
  rw [matchAt?_eq_head?] at h
  exact List.mem_of_head? h

/-- A match that a search finds begins behind some part `a` of the text. -/
theorem exists_matchAt?_of_findFrom? {before : Option Char} {t : Text}
    (h : p.findFrom? before t = some m) :
    ∃ a b, t = a ++ b ∧ p.matchAt? ⟨a.getLast?.or before, b⟩ = some m := by
  induction t generalizing before with
  | nil => exact ⟨[], [], rfl, by simpa using h⟩
  | cons c r ih =>
    rw [findFrom?_cons, Option.orElse_eq_orElse, Option.orElse_eq_or, Option.or_eq_some_iff] at h
    rcases h with h | ⟨-, h⟩
    · exact ⟨[], c :: r, rfl, by simpa using h⟩
    · obtain ⟨a, b, rfl, hab⟩ := ih h
      refine ⟨c :: a, b, rfl, ?_⟩
      rwa [Text.getLast?_cons_or]

/-- A search with a pattern of whole texts finds the whole text or nothing. -/
theorem reads_of_find? (hp : p.isWhole) {t : Text} (h : p.find? t = some m) :
    p.Reads t m.fields := by
  rw [isWhole, Bool.and_eq_true] at hp
  obtain ⟨a, b, rfl, hab⟩ := exists_matchAt?_of_findFrom? h
  have hm := mem_ways_of_matchAt? hab
  have hbefore := before_eq_none_of_opensText hp.1 hm
  obtain ⟨u, hu, hreads⟩ := exists_reads_of_mem_ways hm
  have ha : a = [] := by simpa using hbefore
  have hub : b = u := by simpa [rest_eq_nil_of_closesText hp.2 hm] using hu.rest_eq
  rwa [ha, List.nil_append, hub]

end Pattern

end Oxidize
