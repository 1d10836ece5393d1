import Oxidize.Proofs.Text.Lines

/-!
# Words that replacing brings into a text

`replaceAll` walks through a text; it keeps a character or puts `q` in the place of an occurrence of
`p` (`replaceAll_induction`). A word that begins the result begins the source, or an occurrence of
`p` begins inside of it (`prefix_replaceAll`), and a word inside the result begins in what is kept or
in a `q` (`infix_replaceAll`).

From that follows when a replacement brings no word of a family into a text that is free of them: if
wherever a word of the family and `q` can overlap, the source held a word of the family already
(`Sealed`, `Free.replaceAll`). For given words this is a finite question. So is whether replacing
leaves no `p` behind: `p` and `q` must not overlap (`Apart`, `not_infix_replaceAll`).
-/

namespace Oxidize.Text

variable {c : Char} {b f g p q r t u v : Text} {F : List Text}

/-! ### The walk -/

theorem replaceFrom_eq_drop (n : Nat) (t : Text) :
    replaceFrom p q n t = replaceFrom p q 0 (t.drop n) := by
  induction n generalizing t with
  | zero => rfl
  | succ n ih =>
    cases t with
    | nil => rfl
    | cons c r => exact ih r

theorem replaceAll_cons (h : ¬ p <+: c :: r) : replaceAll (c :: r) p q = c :: replaceAll r p q := by
  have hp : p.isEmpty = false := by
    cases p with
    | nil => exact absurd List.nil_prefix h
    | cons d p => rfl
  have hstart : p.isPrefixOf (c :: r) = false := by
    rwa [← Bool.not_eq_true, List.isPrefixOf_iff_prefix]
  simp [replaceAll, hp, replaceFrom, hstart]

theorem replaceAll_append (hp : p ≠ []) (r : Text) :
    replaceAll (p ++ r) p q = q ++ replaceAll r p q := by
  obtain ⟨c, s, rfl⟩ := List.exists_cons_of_ne_nil hp
  have hstart : (c :: s).isPrefixOf (c :: (s ++ r)) := by
    rw [List.isPrefixOf_iff_prefix]
    exact List.prefix_append (c :: s) r
  simp [replaceAll, replaceFrom, hstart, replaceFrom_eq_drop s.length]

theorem replaceAll_empty (t q : Text) : replaceAll t [] q = t :=
  rfl

/-- A text is empty, or it begins with a character that is kept, or with an occurrence of `p`. -/
theorem replaceAll_induction {P : Text → Prop} (hp : p ≠ []) (nil : P [])
    (keep : ∀ c r, ¬ p <+: c :: r → P r → P (c :: r)) (swap : ∀ r, P r → P (p ++ r)) (t : Text) :
    P t := by
  induction hn : t.length using Nat.strongRecOn generalizing t with
  | _ n ih =>
    subst hn
    cases t with
    | nil => exact nil
    | cons c r =>
      by_cases h : p <+: c :: r
      · obtain ⟨s, hs⟩ := h
        rw [← hs]
        refine swap s (ih s.length ?_ s rfl)
        have hpos := List.length_pos_iff.2 hp
        rw [← hs, List.length_append]
        omega
      · exact keep c r h (ih r.length (by simp) r rfl)

theorem replaceAll_eq_self (h : ¬ p <:+: t) : replaceAll t p q = t := by
  induction t with
  | nil => exact replaceAll_nil p q
  | cons c r ih =>
    rw [replaceAll_cons fun hstart => h hstart.isInfix, ih fun hr => h (List.infix_cons hr)]

/-- The last character stays, unless it ends an occurrence whose replacement ends otherwise. -/
theorem getLast?_replaceAll (hq : q ≠ []) (hlast : p.getLast? = some c → q.getLast? = some c)
    (ht : t.getLast? = some c) : (replaceAll t p q).getLast? = some c := by
  by_cases hp : p = []
  · rwa [hp, replaceAll_empty]
  induction t using replaceAll_induction hp with
  | nil => cases ht
  | keep d r hstart ih =>
    rw [replaceAll_cons hstart]
    by_cases hr : r = []
    · simpa [hr, replaceAll_nil] using ht
    · rw [List.getLast?_cons_of_ne_nil hr] at ht
      rw [List.getLast?_cons_of_ne_nil (replaceAll_ne_nil hq hr), ih ht]
  | swap r ih =>
    rw [replaceAll_append hp, List.getLast?_append]
    by_cases hr : r = []
    · rw [hr, List.append_nil] at ht
      simp [hr, replaceAll_nil, hlast ht]
    · rw [List.getLast?_append, List.getLast?_eq_some_getLast hr, Option.some_or] at ht
      rw [ih (by rw [List.getLast?_eq_some_getLast hr, ht]), Option.some_or]

/-! ### Words of the result -/

/-- One of two texts begins with the other. -/
def Agree (u v : Text) : Prop :=
  u <+: v ∨ v <+: u

instance (u v : Text) : Decidable (Agree u v) :=
  inferInstanceAs (Decidable (_ ∨ _))

/-- A word that begins the result begins the source, or an occurrence of `p` begins inside of it. -/
theorem prefix_replaceAll (h : g <+: replaceAll t p q) :
    g <+: t ∨ ∃ u v, g = u ++ v ∧ v ≠ [] ∧ Agree v q ∧ u ++ p <+: t := by
  by_cases hp : p = []
  · subst hp
    exact .inl h
  induction t using replaceAll_induction hp generalizing g with
  | nil => exact .inl (by rwa [replaceAll_nil] at h)
  | keep c r hstart ih =>
    rw [replaceAll_cons hstart] at h
    rcases List.prefix_cons_iff.1 h with rfl | ⟨g, rfl, htail⟩
    · exact .inl List.nil_prefix
    · rcases ih htail with h | ⟨u, v, rfl, hv, hagree, hu⟩
      · exact .inl (List.cons_prefix_cons.2 ⟨rfl, h⟩)
      · exact .inr ⟨c :: u, v, rfl, hv, hagree, List.cons_prefix_cons.2 ⟨rfl, hu⟩⟩
  | swap r ih =>
    by_cases hg : g = []
    · exact .inl (hg ▸ List.nil_prefix)
    · rw [replaceAll_append hp] at h
      exact .inr ⟨[], g, rfl, hg, List.prefix_or_prefix_of_prefix h (List.prefix_append q _),
        List.prefix_append p r⟩

/-- A word inside the result begins in a text that is kept, or in the last part `b` of a `q`. -/
theorem infix_replaceAll (hg : g ≠ []) (h : g <:+: replaceAll t p q) :
    ∃ b r, g <+: b ++ replaceAll r p q ∧ (b = [] ∧ r <:+ t ∨ b ≠ [] ∧ b <:+ q ∧ p ++ r <:+ t) := by
  by_cases hp : p = []
  · subst hp
    obtain ⟨a, r, ht⟩ := h
    refine ⟨[], g ++ r, List.prefix_append g r, .inl ⟨rfl, a, ?_⟩⟩
    rw [← List.append_assoc]
    exact ht
  induction t using replaceAll_induction hp with
  | nil => exact absurd (List.infix_nil.1 (by rwa [replaceAll_nil] at h)) hg
  | keep c r hstart ih =>
    rw [replaceAll_cons hstart] at h
    rcases List.infix_cons_iff.1 h with h | h
    · exact ⟨[], c :: r, by rwa [List.nil_append, replaceAll_cons hstart],
        .inl ⟨rfl, List.suffix_rfl⟩⟩
    · obtain ⟨b, s, hbegin, hplace⟩ := ih h
      refine ⟨b, s, hbegin, hplace.imp ?_ ?_⟩
      · exact fun ⟨hb, hs⟩ => ⟨hb, hs.trans (List.suffix_cons c r)⟩
      · exact fun ⟨hb, hq, hs⟩ => ⟨hb, hq, hs.trans (List.suffix_cons c r)⟩
  | swap r ih =>
    rw [replaceAll_append hp] at h
    rcases List.infix_append_iff_ne_nil.1 h with ⟨x, y, hq⟩ | h | ⟨b, v, hb, -, rfl, hq, hv⟩
    · refine ⟨g ++ y, r, ?_, .inr ⟨by simp [hg], ⟨x, by rw [← hq, List.append_assoc]⟩,
        List.suffix_rfl⟩⟩
      rw [List.append_assoc]
      exact List.prefix_append g _
    · obtain ⟨b, s, hbegin, hplace⟩ := ih h
      refine ⟨b, s, hbegin, hplace.imp ?_ ?_⟩
      · exact fun ⟨hb, hs⟩ => ⟨hb, hs.trans (List.suffix_append p r)⟩
      · exact fun ⟨hb, hq, hs⟩ => ⟨hb, hq, hs.trans (List.suffix_append p r)⟩
    · exact ⟨b, r, (List.prefix_append_right_inj b).2 hv, .inr ⟨hb, hq, List.suffix_rfl⟩⟩

/-! ### Families of words -/

/-- No word of the family occurs in the text. -/
def Free (F : List Text) (t : Text) : Prop :=
  ∀ f ∈ F, ¬ f <:+: t

theorem free_singleton : Free [f] t ↔ ¬ f <:+: t :=
  List.forall_mem_singleton

/-- A character that no word of the family holds can stand in front. -/
theorem Free.cons (hF : ∀ f ∈ F, c ∉ f) (ht : Free F t) : Free F (c :: t) := by
  intro f hf hinfix
  rcases List.infix_cons_iff.1 hinfix with h | h
  · rcases List.prefix_cons_iff.1 h with rfl | ⟨g, rfl, -⟩
    · exact ht [] hf List.nil_infix
    · exact hF _ hf List.mem_cons_self
  · exact ht f hf h

/-- Replacing `p` by `q` brings no word of the family into a text: `p` holds one itself, or wherever
such a word and `q` overlap, there was one before. -/
def Sealed (F : List Text) (p q : Text) : Prop :=
  (∃ f ∈ F, f <:+: p) ∨
    ∀ g ∈ F, (∀ n < q.length, Agree (q.drop n) g → q.drop n <:+ p) ∧
      ∀ n < g.length, Agree (g.drop n) q → ∃ f ∈ F, f <:+: g.take n ++ p

instance (F : List Text) (p q : Text) : Decidable (Sealed F p q) :=
  inferInstanceAs (Decidable (_ ∨ _))

theorem Free.replaceAll (hF : Sealed F p q) (ht : Free F t) : Free F (replaceAll t p q) := by
  rcases hF with ⟨f, hf, hfp⟩ | hF
  · -- A replacement that never happens.
    rwa [replaceAll_eq_self fun h => ht f hf (hfp.trans h)]
  intro g hg hinfix
  obtain ⟨hback, hfront⟩ := hF g hg
  have hne : g ≠ [] := by
    rintro rfl
    exact ht [] hg List.nil_infix
  -- Where a part of the word stands in what is kept, it stood there before.
  have hkept {b v r : Text} (hgbv : g = b ++ v) (hv : v <+: Text.replaceAll r p q)
      (hbr : b ++ r <:+: t) : False := by
    rcases prefix_replaceAll hv with hv | ⟨u, v, rfl, hv, hagree, hu⟩
    · exact ht g hg (hgbv ▸ ((List.prefix_append_right_inj b).2 hv).isInfix.trans hbr)
    · obtain ⟨f, hf, hfu⟩ := hfront (b ++ u).length
        (by simpa [hgbv] using List.length_pos_iff.2 hv)
        (by rwa [hgbv, ← List.append_assoc, List.drop_left])
      rw [hgbv, ← List.append_assoc, List.take_left, List.append_assoc] at hfu
      exact ht f hf (hfu.trans (((List.prefix_append_right_inj b).2 hu).isInfix.trans hbr))
  obtain ⟨b, r, hbegin, ⟨rfl, hr⟩ | ⟨hb, hq, hr⟩⟩ := infix_replaceAll hne hinfix
  · exact hkept (b := []) rfl hbegin hr.isInfix
  · have hagree : Agree b g :=
      List.prefix_or_prefix_of_prefix (List.prefix_append b _) hbegin
    have hbp : b <:+ p := by
      obtain ⟨a, rfl⟩ := hq
      have hdrop : (a ++ b).drop a.length = b := List.drop_left
      rw [← hdrop] at hagree ⊢
      exact hback a.length (by simpa using List.length_pos_iff.2 hb) hagree
    have hbr : b ++ r <:+: t := by
      obtain ⟨a, rfl⟩ := hbp
      rw [List.append_assoc] at hr
      exact ((List.suffix_append a (b ++ r)).trans hr).isInfix
    rcases hagree with ⟨v, rfl⟩ | hgb
    · exact hkept rfl ((List.prefix_append_right_inj b).1 hbegin) hbr
    · exact ht g hg (hgb.isInfix.trans ((List.prefix_append b r).isInfix.trans hbr))

/-- A text that is free of shorter words is free of the words that hold them. -/
theorem Free.of_shorter {G : List Text} (hG : ∀ g ∈ G, ∃ f ∈ F, f <:+: g) (ht : Free F t) :
    Free G t := by
  intro g hg hinfix
  obtain ⟨f, hf, hfg⟩ := hG g hg
  exact ht f hf (hfg.trans hinfix)

/-! ### The word that is replaced -/

/-- The word `p` and what is written for it do not overlap, whichever of the two comes first. -/
def Apart (p q : Text) : Prop :=
  (∀ n < p.length, ¬ Agree (p.drop n) q) ∧ ∀ n < q.length, ¬ Agree (q.drop n) p

instance (p q : Text) : Decidable (Apart p q) :=
  inferInstanceAs (Decidable (_ ∧ _))

theorem not_infix_replaceAll (hp : p ≠ []) (h : Apart p q) (t : Text) :
    ¬ p <:+: replaceAll t p q := by
  obtain ⟨hfront, hback⟩ := h
  intro hinfix
  obtain ⟨b, r, hbegin, ⟨rfl, -⟩ | ⟨hb, ⟨a, rfl⟩, -⟩⟩ := infix_replaceAll hp hinfix
  · rw [List.nil_append] at hbegin
    rcases prefix_replaceAll hbegin with ⟨s, rfl⟩ | ⟨u, v, hpuv, hv, hagree, -⟩
    · -- What begins with `p` begins with `q` afterwards.
      rw [replaceAll_append hp] at hbegin
      refine hfront 0 (List.length_pos_iff.2 hp) ?_
      exact List.prefix_or_prefix_of_prefix hbegin (List.prefix_append q _)
    · refine hfront u.length (by simpa [hpuv] using List.length_pos_iff.2 hv) ?_
      rwa [hpuv, List.drop_left]
  · refine hback a.length (by simpa using List.length_pos_iff.2 hb) ?_
    rw [List.drop_left]
    exact List.prefix_or_prefix_of_prefix (List.prefix_append b _) hbegin

end Oxidize.Text
