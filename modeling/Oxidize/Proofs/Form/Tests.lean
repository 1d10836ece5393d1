import Oxidize.Proofs.Form.Indent
import Oxidize.Proofs.Form.Inline
import Oxidize.Proofs.Pattern.Reaches

/-!
# Membership tests, one by one

How the membership forms walk through a text. `m.Makes t t'` says that they turn `t` into `t'`,
wherever `t` stands. A test with single spaces becomes a question to the collection (`Makes.hit`).
Any other run of characters that could be an item is kept if no test goes on behind it
(`Makes.place`): the word behind it is another one (`not_goesOn_of_ne`) or no collection follows
(`not_goesOn_of_not_path`).
-/

namespace Oxidize

open Pattern Text

namespace Pattern

variable {ι : Type} {set : Char → Bool} {u v : Text}

/-- A run of characters that cannot go on is taken as a whole. -/
theorem run_chars_append (hu : Run set u) (hv : ∀ c ∈ v.head?, set c = false)
    (before : Option Char) (k : Cursor → Option (Match ι)) :
    run (chars set) ⟨before, u ++ v⟩ k = k ⟨u.getLast?.or before, v⟩ := by
  obtain ⟨c, r, rfl⟩ := List.exists_cons_of_ne_nil hu.1
  obtain ⟨hc, hr⟩ := List.forall_mem_cons.1 hu.2
  rw [chars, run_seq, List.cons_append, run_one_cons, if_pos hc, run_span,
    Cursor.skip_append hr hv, getLast?_cons_or]

end Pattern

namespace Membership

variable {m : Membership} {item collection r t t' u v : Text}

/-- The word of a test. -/
def word : Membership → Text
  | absent => "!in"
  | present => "in"

/-- The mark in front of a question. -/
def mark : Membership → Text
  | absent => "!"
  | present => []

/-- A test with single spaces. -/
def written (m : Membership) (item collection : Text) : Text :=
  item ++ " " ++ m.word ++ " " ++ collection

/-- The question that a test becomes. -/
def question (m : Membership) (item collection : Text) : Text :=
  m.mark ++ collection ++ ".contains(&" ++ item ++ ")"

theorem pattern_form (m : Membership) : m.form.pattern = test m.word := by
  cases m <;> rfl

theorem expand_form (m : Membership) (s : Cursor) (item collection : Text) :
    m.form.expand ⟨s, [(.item, item), (.collection, collection)]⟩ = m.question item collection := by
  cases m <;> simp [form, Form.expand, Piece.expand, question, mark]

theorem head?_word (m : Membership) (r : Text) : ∀ c ∈ (m.word ++ r).head?, isSpace c = false := by
  cases m <;> rintro _ ⟨rfl⟩ <;> rfl

theorem isPlace_of_isPath {c : Char} (hc : isPath c) : isPlace c := by
  have hmem : ∀ d ∈ (".[]" : Text), d ∈ (".[]\"'" : Text) := by decide
  simp only [isPath, isPlace, oneOf, Bool.or_eq_true, List.contains_iff_mem] at hc ⊢
  exact hc.imp_right (hmem c)

theorem matchAt?_written (hitem : Run isPlace item) (hcollection : Run isPath collection)
    (hr : ∀ c ∈ r.head?, isPath c = false) (before : Option Char) :
    m.form.pattern.matchAt? ⟨before, m.written item collection ++ r⟩ =
      some ⟨⟨collection.getLast?.or (some ' '), r⟩,
        [(.item, item), (.collection, collection)]⟩ := by
  have hspace : Run isSpace [' '] := by decide
  have hink : ∀ c ∈ (collection ++ r).head?, isSpace c = false := fun c hc =>
    isSpace_of_isPlace (isPlace_of_isPath (hcollection.set_of_head? r c hc))
  have htext : m.written item collection ++ r =
      item ++ ([' '] ++ (m.word ++ ([' '] ++ (collection ++ r)))) := by
    simp [written]
  rw [htext, pattern_form, matchAt?, test, run_sequence_cons, run_field,
    run_chars_append hitem (by rintro _ ⟨rfl⟩; rfl), run_sequence_cons, space,
    run_chars_append hspace (head?_word m _), run_sequence_cons, run_text, Cursor.pass?_append,
    Option.bind_some, run_sequence_cons, run_chars_append hspace hink, run_sequence_cons, run_field,
    run_chars_append hcollection hr, run_sequence_nil]
  simp [Match.record, Cursor.upTo]

/-- Replacing the tests of a kind makes `t'` of `t`, whatever stands before it. -/
def Makes (m : Membership) (t t' : Text) : Prop :=
  ∀ before, m.form.pattern.replaceFrom m.form.expand 0 before t = t'

/-- A text that goes on with a test, behind its item. -/
def GoesOn (m : Membership) (v : Text) : Prop :=
  ∃ s s' collection r, Run isSpace s ∧ Run isSpace s' ∧ Run isPath collection ∧
    v = s ++ (m.word ++ (s' ++ (collection ++ r)))

/-- Where a match begins, a run of characters of places is followed by the rest of a test. -/
theorem exists_of_matchAt? {before : Option Char} {found : Match Field}
    (h : m.form.pattern.matchAt? ⟨before, t⟩ = some found) :
    ∃ item v, Run isPlace item ∧ t = item ++ v ∧ m.GoesOn v := by
  obtain ⟨x, ht, hreads⟩ := exists_reads_of_matchAt? h
  have hturns := turns_of_recasts ⟨found, hreads, rfl⟩
  generalize m.form.expand found = y at hturns
  cases hturns with
  | @absent item s s' collection hitem hs hs' hcollection =>
    exact ⟨item, s ++ ("!in" ++ (s' ++ (collection ++ found.stop.rest))), hitem, by simp [ht],
      s, s', collection, found.stop.rest, hs, hs', hcollection, rfl⟩
  | @present item s s' collection hitem hs hs' hcollection =>
    exact ⟨item, s ++ ("in" ++ (s' ++ (collection ++ found.stop.rest))), hitem, by simp [ht],
      s, s', collection, found.stop.rest, hs, hs', hcollection, rfl⟩

theorem GoesOn.head?_isSpace (h : m.GoesOn v) : ∀ c ∈ v.head?, isSpace c := by
  obtain ⟨s, s', collection, r, hs, -, -, rfl⟩ := h
  exact hs.set_of_head? _

theorem not_goesOn_cons {c : Char} (hc : isSpace c = false) : ¬ m.GoesOn (c :: v) :=
  fun h => Bool.eq_false_iff.1 hc (h.head?_isSpace c rfl)

/-- The next word is that of the test, and then a collection follows. -/
theorem GoesOn.word_eq {p : Text} (hp : Run isInk p)
    (hv : ∀ c ∈ v.head?, isSpace c) (h : m.GoesOn (' ' :: (p ++ v))) :
    p = m.word ∧ ∃ s' collection r, Run isSpace s' ∧ Run isPath collection ∧
      v = s' ++ (collection ++ r) := by
  obtain ⟨s, s', collection, r, hs, hs', hcollection, h⟩ := h
  have hspace : ∀ c ∈ [' '], isSpace c := by decide
  have hhead : ∀ c ∈ (p ++ v).head?, isSpace c = false := fun c hc =>
    isInk_iff.1 (hp.set_of_head? v c hc)
  obtain ⟨-, h⟩ := run_append_inj (t := [' ']) hspace hs.2 hhead (head?_word m _) h
  have hword : ∀ c ∈ m.word, isInk c := by cases m <;> decide
  have hend {u : Text} (hu : ∀ c ∈ u.head?, isSpace c) : ∀ c ∈ u.head?, isInk c = false := by
    simpa [isInk] using hu
  obtain ⟨rfl, rfl⟩ := run_append_inj hp.2 hword (hend hv) (hend (hs'.set_of_head? _)) h
  exact ⟨rfl, s', collection, r, hs', hcollection, rfl⟩

/-- No test goes on with another word. -/
theorem not_goesOn_of_ne {p : Text} (hp : Run isInk p)
    (hv : ∀ c ∈ v.head?, isSpace c) (hne : p ≠ m.word) : ¬ m.GoesOn (' ' :: (p ++ v)) :=
  fun h => hne (h.word_eq hp hv).1

/-- No test goes on with a character that is in no path behind the next word. -/
theorem not_goesOn_of_not_path {p : Text} {c : Char} (hp : Run isInk p)
    (hc : isSpace c = false) (hpath : isPath c = false) :
    ¬ m.GoesOn (' ' :: (p ++ ' ' :: (c :: v))) := by
  intro h
  obtain ⟨-, s', collection, r, hs', hcollection, h⟩ := h.word_eq hp (by rintro _ ⟨rfl⟩; rfl)
  have hink : ∀ d ∈ (collection ++ r).head?, isSpace d = false := fun d hd =>
    isSpace_of_isPlace (isPlace_of_isPath (hcollection.set_of_head? r d hd))
  have hspace : ∀ c ∈ [' '], isSpace c := by decide
  obtain ⟨-, h⟩ := run_append_inj (t := [' ']) hspace hs'.2 (by rintro _ ⟨rfl⟩; exact hc) hink h
  have hfirst := hcollection.set_of_head? r c (by rw [← h]; rfl)
  simp [hpath] at hfirst

theorem Makes.nil : m.Makes [] [] :=
  fun _ => rfl

/-- A character that no item begins with is kept. -/
theorem Makes.other {c : Char} (hc : isPlace c = false) (h : m.Makes t t') :
    m.Makes (c :: t) (c :: t') := by
  intro before
  rw [replaceFrom_cons_of_none, h]
  cases hm : m.form.pattern.matchAt? ⟨before, c :: t⟩ with
  | none => rfl
  | some found =>
    obtain ⟨item, v, hitem, ht, -⟩ := exists_of_matchAt? hm
    have := hitem.set_of_head? v c (by rw [← ht]; rfl)
    simp [hc] at this

/-- A run that could be an item is kept if no test goes on behind it. -/
theorem Makes.place (hu : ∀ c ∈ u, isPlace c) (ht : ∀ c ∈ t.head?, isPlace c = false)
    (hno : ¬ m.GoesOn t) (h : m.Makes t t') : m.Makes (u ++ t) (u ++ t') := by
  induction u with
  | nil => exact h
  | cons c u ih =>
    obtain ⟨hc, hu⟩ := List.forall_mem_cons.1 hu
    intro before
    rw [List.cons_append, replaceFrom_cons_of_none, ih hu, List.cons_append]
    cases hm : m.form.pattern.matchAt? ⟨before, c :: (u ++ t)⟩ with
    | none => rfl
    | some found =>
      -- The item of a match is the whole run, since white space follows it.
      obtain ⟨item, v, hitem, htext, hgoes⟩ := exists_of_matchAt? hm
      have hv : ∀ d ∈ v.head?, isPlace d = false := by
        intro d hd
        have hspace := hgoes.head?_isSpace d hd
        cases hplace : isPlace d with
        | false => rfl
        | true => exact hspace.symm.trans (isSpace_of_isPlace hplace)
      obtain ⟨-, rfl⟩ := run_append_inj (t := c :: u) (List.forall_mem_cons.2 ⟨hc, hu⟩) hitem.2 ht
        hv htext
      exact absurd hgoes hno

/-- A test becomes a question. -/
theorem Makes.hit (hitem : Run isPlace item) (hcollection : Run isPath collection)
    (hr : ∀ c ∈ t.head?, isPath c = false) (h : m.Makes t t') :
    m.Makes (m.written item collection ++ t) (m.question item collection ++ t') := by
  intro before
  have hne : m.written item collection ≠ [] := by simp [written, hitem.1]
  have hmatch := matchAt?_written (m := m) hitem hcollection hr before
  rw [replaceFrom_append_of_some hne hmatch rfl, expand_form, h]

/-- The end of a text behind a test: white space, and then no word of a test. -/
structure Ends (m : Membership) (r : Text) : Prop where
  head : ∀ c ∈ r.head?, isSpace c
  stops : ¬ m.GoesOn r

theorem Ends.not_place (h : m.Ends r) : ∀ c ∈ r.head?, isPlace c = false := by
  intro c hc
  cases hplace : isPlace c with
  | false => rfl
  | true => exact (h.head c hc).symm.trans (isSpace_of_isPlace hplace)

theorem Ends.not_path (h : m.Ends r) : ∀ c ∈ r.head?, isPath c = false := by
  intro c hc
  cases hpath : isPath c with
  | false => rfl
  | true => exact (isPlace_of_isPath hpath).symm.trans (h.not_place c hc)

/-- The end of the head of a block. -/
theorem ends_brace (m : Membership) : m.Ends " \x7b" := by
  have hne : "\x7b".toList ≠ m.word := by cases m <;> decide
  have hbrace : Run isInk "\x7b" := by decide
  refine ⟨by rintro _ ⟨rfl⟩; rfl, ?_⟩
  exact not_goesOn_of_ne (v := []) hbrace (by simp) hne

theorem Makes.brace : m.Makes " \x7b" " \x7b" :=
  .other rfl (.other rfl .nil)

end Membership

end Oxidize
