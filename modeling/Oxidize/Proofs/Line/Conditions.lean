import Oxidize.Proofs.Line.Heads

/-!
# Membership tests in conditions

A head with a condition that is a chain of membership tests: each test becomes a question to its
collection, and everything else stays as it is (`convert_tests`). The tests of absence are turned in
a first pass and the others in a second one, so that between the passes the chain is mixed
(`Test.halfway`). A pass goes through one test after the other (`Test.Turned`), and from a pass
through one test follows the pass through a chain (`Chain.makes`).
-/

namespace Oxidize

open Pattern Text

/-- The characters of items and collections: words and dots. -/
def isDotted (c : Char) : Bool :=
  isWord c || c == '.'

theorem isPath_of_isDotted {c : Char} (hc : isDotted c) : isPath c := by
  rw [isDotted, Bool.or_eq_true, beq_iff_eq] at hc
  rcases hc with hc | rfl
  · rw [isPath, hc, Bool.true_or]
  · rfl

/-- A membership test. The item is not the word of a test. -/
structure Test where
  kind : Membership
  item : Text
  collection : Text
  dotted_item : Run isDotted item
  dotted_collection : Run isDotted collection
  item_ne : item ≠ "in"

/-- What stands between two tests. -/
inductive Joiner
  | and
  | or
  deriving DecidableEq

/-- A joiner as it is written. -/
def Joiner.text : Joiner → Text
  | and => "&&"
  | or => "||"

/-- One or more tests with joiners between them. -/
inductive Chain
  | last (t : Test)
  | more (t : Test) (j : Joiner) (further : Chain)

namespace Chain

/-- The text of a chain, for a way to write its tests. -/
def write (f : Test → Text) : Chain → Text
  | last t => f t
  | more t j further => f t ++ " " ++ j.text ++ " " ++ further.write f

end Chain

namespace Test

/-- The test as it stands in the script. -/
def source (t : Test) : Text :=
  t.kind.written t.item t.collection

/-- The test as a question to its collection. -/
def target (t : Test) : Text :=
  t.kind.question t.item t.collection

/-- The test between the two passes. -/
def halfway (t : Test) : Text :=
  match t.kind with
  | .absent => t.target
  | .present => t.source

theorem halfway_of_absent {t : Test} (ht : t.kind = .absent) : t.halfway = t.target := by
  rw [halfway, ht]

theorem halfway_of_present {t : Test} (ht : t.kind = .present) : t.halfway = t.source := by
  rw [halfway, ht]

theorem path_collection (t : Test) : Run isPath t.collection :=
  ⟨t.dotted_collection.1, fun c hc => isPath_of_isDotted (t.dotted_collection.2 c hc)⟩

theorem place_item (t : Test) : Run isPlace t.item :=
  ⟨t.dotted_item.1, fun c hc =>
    Membership.isPlace_of_isPath (isPath_of_isDotted (t.dotted_item.2 c hc))⟩

theorem place_collection (t : Test) : Run isPlace t.collection :=
  ⟨t.dotted_collection.1, fun c hc => Membership.isPlace_of_isPath (t.path_collection.2 c hc)⟩

theorem ink_of_dotted {t : Text} (ht : Run isDotted t) : Run isInk t :=
  ⟨ht.1, fun c hc => isInk_iff.2
    (isSpace_of_isPlace (Membership.isPlace_of_isPath (isPath_of_isDotted (ht.2 c hc))))⟩

theorem ne_of_dotted {t : Text} (ht : Run isDotted t) : t ≠ "!in" := by
  rintro rfl
  exact absurd ht (by decide)

end Test

/-! ### One pass -/

namespace Membership

/-- A pass through a test that `f` writes makes the test as `g` writes it, and behind white space no
test goes on with what `f` writes. -/
structure Passes (m : Membership) (f g : Test → Text) : Prop where
  makes : ∀ {t r r'}, m.Ends r → m.Makes r r' → m.Makes (f t ++ r) (g t ++ r')
  starts : ∀ {t r}, (∀ c ∈ r.head?, isSpace c) → ¬ m.GoesOn (' ' :: (f t ++ r))

end Membership

namespace Test

variable {t : Test} {m : Membership} {r r' : Text}

/-- A test of the kind that the pass looks for. -/
theorem makes_target (ht : t.kind = m) (hr : m.Ends r) (h : m.Makes r r') :
    m.Makes (t.source ++ r) (t.target ++ r') := by
  subst ht
  exact .hit t.place_item t.path_collection hr.not_path h

/-- The pass for tests of absence keeps the others. -/
theorem makes_source (ht : t.kind = .present) (hr : Membership.absent.Ends r)
    (h : Membership.absent.Makes r r') : Membership.absent.Makes (t.source ++ r) (t.source ++ r') := by
  have hword : Run isInk "in" := by decide
  have hsource (r : Text) :
      t.source ++ r = t.item ++ ' ' :: ("in" ++ ' ' :: (t.collection ++ r)) := by
    simp [source, Membership.written, ht, Membership.word]
  rw [hsource, hsource]
  refine .place t.place_item.2 (by rintro _ ⟨rfl⟩; rfl) ?_ (.other rfl (.place (by decide)
    (by rintro _ ⟨rfl⟩; rfl) ?_ (.other rfl (.place t.place_collection.2 hr.not_place hr.stops h))))
  · exact Membership.not_goesOn_of_ne hword (by rintro _ ⟨rfl⟩; rfl) (by decide)
  · exact Membership.not_goesOn_of_ne (ink_of_dotted t.dotted_collection) hr.head
      (ne_of_dotted t.dotted_collection)

/-- Neither pass finds anything in a question. -/
theorem makes_question (ht : t.kind = .absent) (h : m.Makes r r') :
    m.Makes (t.target ++ r) (t.target ++ r') := by
  have htarget (r : Text) :
      t.target ++ r =
        '!' :: ((t.collection ++ ".contains") ++ '(' :: '&' :: (t.item ++ ')' :: r)) := by
    simp [target, Membership.question, ht, Membership.mark]
  have hcall : ∀ c ∈ t.collection ++ ".contains", isPlace c :=
    List.forall_mem_append.2 ⟨t.place_collection.2, by decide⟩
  rw [htarget, htarget]
  refine .other rfl (.place hcall (by rintro _ ⟨rfl⟩; rfl) ?_ (.other rfl (.other rfl
    (.place t.place_item.2 (by rintro _ ⟨rfl⟩; rfl) ?_ (.other rfl h)))))
  · exact Membership.not_goesOn_cons rfl
  · exact Membership.not_goesOn_cons rfl

/-- No test goes on with the item of another one. -/
theorem not_goesOn_source (t : Test) (m : Membership) (r : Text) :
    ¬ m.GoesOn (' ' :: (t.source ++ r)) := by
  have hne : t.item ≠ m.word := by
    cases m with
    | absent => exact ne_of_dotted t.dotted_item
    | present => exact t.item_ne
  have hsource : t.source ++ r =
      t.item ++ ' ' :: (t.kind.word ++ (" " ++ (t.collection ++ r))) := by
    simp [source, Membership.written]
  rw [hsource]
  exact Membership.not_goesOn_of_ne (ink_of_dotted t.dotted_item) (by rintro _ ⟨rfl⟩; rfl) hne

/-- A question is one word. -/
theorem ink_target (t : Test) : Run isInk t.target := by
  have hcollection := (ink_of_dotted t.dotted_collection).2
  have hitem := (ink_of_dotted t.dotted_item).2
  have hmark : ∀ c ∈ t.kind.mark, isInk c := by cases t.kind <;> decide
  refine ⟨by simp [target, Membership.question], ?_⟩
  simp only [target, Membership.question, List.forall_mem_append]
  exact ⟨⟨⟨⟨hmark, hcollection⟩, by decide⟩, hitem⟩, by decide⟩

theorem passes_absent : Membership.absent.Passes source halfway where
  makes := by
    intro t r r' hr h
    cases ht : t.kind with
    | absent =>
      rw [halfway_of_absent ht]
      exact makes_target ht hr h
    | present =>
      rw [halfway_of_present ht]
      exact makes_source ht hr h
  starts := by
    intro t r _
    exact t.not_goesOn_source .absent r

theorem passes_present : Membership.present.Passes halfway target where
  makes := by
    intro t r r' hr h
    cases ht : t.kind with
    | absent =>
      rw [halfway_of_absent ht]
      exact makes_question ht h
    | present =>
      rw [halfway_of_present ht]
      exact makes_target ht hr h
  starts := by
    intro t r hr
    cases ht : t.kind with
    | absent =>
      rw [halfway_of_absent ht]
      have hne : t.target ≠ Membership.present.word := by
        simp [target, Membership.question, ht, Membership.mark, Membership.word]
      exact Membership.not_goesOn_of_ne t.ink_target hr hne
    | present =>
      rw [halfway_of_present ht]
      exact t.not_goesOn_source .present r

end Test

/-! ### Both passes through a line -/

namespace Chain

variable {m : Membership} {f g : Test → Text} {r r' : Text} {ch : Chain}

/-- A word that is kept, in front of a text that goes on without a test. -/
theorem makes_joiner (j : Joiner) (h : m.Makes r r') :
    m.Makes (" " ++ j.text ++ " " ++ r) (" " ++ j.text ++ " " ++ r') := by
  cases j <;> exact .other rfl (.other rfl (.other rfl (.other rfl h)))

theorem ends_joiner (m : Membership) (j : Joiner) (r : Text) :
    m.Ends (" " ++ j.text ++ " " ++ r) := by
  have hne : j.text ≠ m.word := by cases j <;> cases m <;> decide
  have hink : Run isInk j.text := by cases j <;> decide
  refine ⟨by rintro _ ⟨rfl⟩; rfl, ?_⟩
  have hsplit : " " ++ j.text ++ " " ++ r = ' ' :: (j.text ++ ' ' :: r) := by simp
  rw [hsplit]
  exact Membership.not_goesOn_of_ne hink (by rintro _ ⟨rfl⟩; rfl) hne

theorem makes_write (hfg : m.Passes f g) (ch : Chain) (hr : m.Ends r) (h : m.Makes r r') :
    m.Makes (ch.write f ++ r) (ch.write g ++ r') := by
  induction ch with
  | last t => exact hfg.makes hr h
  | more t j further ih =>
    have hsplit (f : Test → Text) (r : Text) : (more t j further).write f ++ r =
        f t ++ (" " ++ j.text ++ " " ++ (further.write f ++ r)) := by
      simp [write]
    rw [hsplit, hsplit]
    exact hfg.makes (ends_joiner m j _) (makes_joiner j ih)

theorem not_goesOn_write (hfg : m.Passes f g) (ch : Chain) (hr : ∀ c ∈ r.head?, isSpace c) :
    ¬ m.GoesOn (' ' :: (ch.write f ++ r)) := by
  cases ch with
  | last t => exact hfg.starts hr
  | more t j further =>
    have hsplit : (more t j further).write f ++ r =
        f t ++ ' ' :: (j.text ++ ' ' :: (further.write f ++ r)) := by
      simp [write]
    rw [hsplit]
    exact hfg.starts (by rintro _ ⟨rfl⟩; rfl)

/-- The characters of a chain. -/
theorem mem_write (ch : Chain) :
    ∀ c ∈ ch.write Test.source, isDotted c ∨ c ∈ (" !&|" : Text) := by
  have htest (t : Test) : ∀ c ∈ t.source, isDotted c ∨ c ∈ (" !&|" : Text) := by
    have hword : ∀ c ∈ t.kind.word, isDotted c ∨ c ∈ (" !&|" : Text) := by
      cases t.kind <;> decide
    have hspace : ∀ c ∈ (" " : Text), isDotted c ∨ c ∈ (" !&|" : Text) := by decide
    simp only [Test.source, Membership.written, List.forall_mem_append]
    exact ⟨⟨⟨⟨fun c hc => .inl (t.dotted_item.2 c hc), hspace⟩, hword⟩, hspace⟩,
      fun c hc => .inl (t.dotted_collection.2 c hc)⟩
  induction ch with
  | last t => exact htest t
  | more t j further ih =>
    have hjoiner : ∀ c ∈ j.text, isDotted c ∨ c ∈ (" !&|" : Text) := by cases j <;> decide
    have hspace : ∀ c ∈ (" " : Text), isDotted c ∨ c ∈ (" !&|" : Text) := by decide
    simp only [write, List.forall_mem_append]
    exact ⟨⟨⟨⟨htest t, hspace⟩, hjoiner⟩, hspace⟩, ih⟩

theorem not_mem_write {c : Char} (hc : isDotted c = false) (hne : c ∉ (" !&|" : Text))
    (ch : Chain) : c ∉ ch.write Test.source := by
  intro hmem
  rcases ch.mem_write c hmem with h | h
  · exact Bool.eq_false_iff.1 hc h
  · exact hne h

theorem write_ne_nil (ch : Chain) : ch.write Test.source ≠ [] := by
  cases ch <;> simp [write, Test.source, Membership.written]

theorem isSpace_of_head? (ch : Chain) :
    ∀ c ∈ (ch.write Test.source).head?, isSpace c = false := by
  have hitem (t : Test) (r : Text) : ∀ c ∈ (t.item ++ r).head?, isSpace c = false :=
    fun c hc => isInk_iff.1 ((Test.ink_of_dotted t.dotted_item).set_of_head? r c hc)
  cases ch <;> simp only [write, Test.source, Membership.written, List.append_assoc] <;>
    exact hitem _ _

theorem isSpace_of_getLast? (ch : Chain) :
    ∀ c ∈ (ch.write Test.source).getLast?, isSpace c = false := by
  induction ch with
  | last t =>
    rw [write, Test.source, Membership.written, List.getLast?_append_of_ne_nil _
      t.dotted_collection.1]
    exact fun c hc =>
      isInk_iff.1 ((Test.ink_of_dotted t.dotted_collection).2 c (List.mem_of_getLast? hc))
  | more t j further ih =>
    rw [write, List.getLast?_append_of_ne_nil _ further.write_ne_nil]
    exact ih

/-- A chain is a condition. -/
theorem isCondition_write (ch : Chain) : IsCondition (ch.write Test.source) where
  ne_nil := ch.write_ne_nil
  newline := ch.not_mem_write rfl (by decide)
  parenthesis := ch.not_mem_write rfl (by decide)
  equals := ch.not_mem_write rfl (by decide)
  head := ch.isSpace_of_head?
  last := ch.isSpace_of_getLast?

end Chain

namespace Line

/-- A pass through the head of a block. -/
theorem makes_opening {m : Membership} {f f' : Test → Text} (hpass : m.Passes f f') (g : Guard)
    (ch : Chain) : m.Makes (g.opening (ch.write f)) (g.opening (ch.write f')) := by
  have hends := Membership.ends_brace m
  have hsplit (f : Test → Text) :
      g.opening (ch.write f) = g.keyword ++ " " ++ (ch.write f ++ " \x7b") := by
    simp [Guard.opening]
  rw [hsplit, hsplit]
  exact Guard.makes_keyword (ch.not_goesOn_write hpass hends.head) (ch.makes_write hpass hends .brace)

/-- In a head with a chain of membership tests each test becomes a question to its collection. -/
theorem convert_tests (g : Guard) (ch : Chain) :
    convert (g.line (ch.write Test.source)) = g.opening (ch.write Test.target) := by
  have hslash := ch.not_mem_write (c := '/') rfl (by decide)
  have hquote := ch.not_mem_write (c := '"') rfl (by decide)
  rw [Guard.convert_line ch.isCondition_write hslash hquote]
  exact memberships_eq (makes_opening Test.passes_absent g ch) (makes_opening Test.passes_present g ch)

example : convert "while a.b !in in || in1 in c:" =
    "while !in.contains(&a.b) || c.contains(&in1) \x7b".toList := by
  decide +kernel

end Line

end Oxidize
