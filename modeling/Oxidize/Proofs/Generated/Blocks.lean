import Mathlib.Data.List.Forall2
import Oxidize.Proofs.Generated.Echo
import Oxidize.Proofs.Pattern.Takes

/-!
# What is extracted from a generated text

A block opens where a line end or the name of the language stands directly behind a fence. The code
that is extracted from a text with such an opening stands behind one of them and goes on to the next
fence or, where there is none, to the end of the text; without an opening the whole text is the code
(`extract_spec`). So no fence gets into the code.

A closed block ends at the first fence behind its opening, since its code is as short as it can be.
A block that goes on to the end of the text is taken only where no closed one is found, and then no
fence stands behind its opening: with that fence the block would be a closed one.
-/

namespace Oxidize.Generated

open Pattern Text

variable {a t u v w code : Text} {o : Pattern Unit} {m : Match Unit}

/-! ### Openings -/

/-- The ways to write the letters of the name of the language. The long s is an s. -/
def spellings : List Text := ["rR", "uU", "sS\u017f", "tT"]

/-- The name of the language, in letters of any case. -/
def NamesLanguage (w : Text) : Prop :=
  List.Forall₂ (· ∈ ·) w spellings

instance (w : Text) : Decidable (NamesLanguage w) :=
  inferInstanceAs (Decidable (List.Forall₂ _ _ _))

/-- What stands directly behind the fence of a block that opens. -/
def IsOpening (v : Text) : Prop :=
  v = "\n" ∨ NamesLanguage v

/-- A block opens somewhere in the text. -/
def HasOpening (t : Text) : Prop :=
  ∃ v, IsOpening v ∧ fence ++ v <:+: t

theorem reads_anyCase : (anyCase t).Reads u [] ↔ List.Forall₂ (fun c d => sameLetter d c) u t := by
  induction t generalizing u with
  | nil =>
    rw [List.forall₂_nil_right_iff]
    exact and_iff_left rfl
  | cons d t ih =>
    rw [List.forall₂_cons_right_iff, anyCase, List.map_cons, reads_sequence_plain rfl]
    constructor
    · rintro ⟨_, w, ⟨⟨c, hc, rfl⟩, -⟩, rfl, hw⟩
      exact ⟨c, w, hc, ih.1 hw, rfl⟩
    · rintro ⟨c, w, hc, hw, rfl⟩
      exact ⟨[c], w, ⟨⟨c, hc, rfl⟩, rfl⟩, rfl, ih.2 hw⟩

theorem reads_language : (anyCase "rust").Reads v [] ↔ NamesLanguage v := by
  have hletters : "rust".toList = ['r', 'u', 's', 't'] := rfl
  rw [reads_anyCase, hletters, NamesLanguage, spellings]
  simp only [List.forall₂_cons_right_iff, List.forall₂_nil_right_iff]
  simp +decide [sameLetter, or_assoc]

theorem isPlain_of_mem_openings (ho : o ∈ openings) : o.isPlain := by
  have hall : ∀ o ∈ openings, o.isPlain := by decide
  exact hall o ho

theorem isLocal_of_mem_openings (ho : o ∈ openings) : o.isLocal := by
  have hall : ∀ o ∈ openings, o.isLocal := by decide
  exact hall o ho

/-- A block that is found begins with an opening. What its pattern reads behind it is white space. -/
theorem exists_opening_of_reads (ho : o ∈ openings) (hv : o.Reads v []) :
    ∃ w g, v = w ++ g ∧ IsOpening w ∧ Gap g ∧ '`' ∉ g := by
  simp only [openings, List.mem_cons, List.not_mem_nil, or_false] at ho
  rcases ho with rfl | rfl | rfl
  · obtain ⟨w, g, hw, rfl, rfl, -⟩ := (reads_seq_plain rfl).1 hv
    exact ⟨w, "\n", rfl, .inr (reads_language.1 hw), Run.gap (by decide), by decide⟩
  · exact ⟨v, [], (List.append_nil v).symm, .inr (reads_language.1 hv), gap_nil, List.not_mem_nil⟩
  · exact ⟨v, [], (List.append_nil v).symm, .inl hv.1, gap_nil, List.not_mem_nil⟩

theorem exists_reads_of_isOpening (hv : IsOpening v) : ∃ o ∈ openings, o.Reads v [] := by
  rcases hv with rfl | hv
  · exact ⟨Pattern.text "\n", by simp [openings], rfl, rfl⟩
  · exact ⟨anyCase "rust", by simp [openings], reads_language.2 hv⟩

/-! ### The blocks of a text -/

/-- A text without fences stays one behind white space. -/
theorem not_fence_infix_append {g : Text} (hg : '`' ∉ g) (hcode : ¬ fence <:+: code) :
    ¬ fence <:+: g ++ code :=
  fun h => hcode ((infix_append_iff_of_not_mem hg).1 h)

/-- A closed block ends at the first fence behind its opening. -/
theorem exists_of_find?_closed (ho : o.isPlain) (hm : (block o (text fence)).find? t = some m) :
    ∃ a v code r, t = a ++ (fence ++ (v ++ (code ++ (fence ++ r)))) ∧ o.Reads v [] ∧
      ¬ fence <:+: code ∧ m.get () = code := by
  obtain ⟨a, b, rfl, h⟩ := exists_matchAt?_of_findFrom? hm
  rw [matchAt?, block, run_sequence_cons, run_text, Option.bind_eq_some_iff] at h
  obtain ⟨s, hs, h⟩ := h
  rw [run_sequence_cons] at h
  obtain ⟨first, hfirst, n, hn, rfl⟩ := exists_of_run h
  obtain ⟨v, hpass, hv⟩ := exists_reads_of_mem_ways hfirst
  have hnil := fields_eq_nil_of_reads ho hv
  obtain ⟨code, r, hcode, hfree, hfields⟩ := exists_of_matchAt?_until (by decide) hn
  refine ⟨a, v, code, r, ?_, hnil ▸ hv, hfree, ?_⟩
  · rw [← hcode, ← hpass.rest_eq]
    exact congrArg (a ++ ·) (Cursor.passes_of_pass? hs).rest_eq
  · rw [Match.get, Match.follow, hnil, hfields]
    rfl

/-- A block without an end goes on to the end of the text. -/
theorem exists_of_find?_open (ho : o.isPlain) (hm : (block o stop).find? t = some m) :
    ∃ a v code, t = a ++ (fence ++ (v ++ code)) ∧ o.Reads v [] ∧ m.get () = code := by
  obtain ⟨a, b, rfl, h⟩ := exists_matchAt?_of_findFrom? hm
  obtain ⟨x, hx, hreads⟩ := exists_reads_of_matchAt? h
  have hend : m.stop.rest = [] := rest_eq_nil_of_closesText rfl (mem_ways_of_matchAt? h)
  obtain ⟨v, code, z, rfl, hv, ⟨rfl, -⟩, hfields⟩ := (reads_block ho rfl).1 hreads
  refine ⟨a, v, code, ?_, hv, ?_⟩
  · rw [hx, hend]
    simp
  · rw [Match.get, hfields]
    rfl

/-- A block is found where its opening is followed by a fence. -/
theorem isSome_find?_closed (ho : o.isLocal) (hv : o.Reads v []) (a code r : Text) :
    ((block o (text fence)).find? (a ++ (fence ++ (v ++ (code ++ (fence ++ r)))))).isSome :=
  isSome_findFrom? ((reaches_text fence _ _).sequence ((hv.reaches ho _ _).sequence
    ((reaches_many fun _ _ => rfl).field.sequence
      ((reaches_text fence _ r).sequence (reaches_nil _)))))

/-- A block that goes on to the end of the text is found where there is an opening. -/
theorem isSome_find?_open (ho : o.isLocal) (hv : o.Reads v []) (a code : Text) :
    ((block o stop).find? (a ++ (fence ++ (v ++ (code ++ []))))).isSome :=
  isSome_findFrom? ((reaches_text fence _ _).sequence ((hv.reaches ho _ _).sequence
    ((reaches_many fun _ _ => rfl).field.sequence ((reaches_stop _).sequence (reaches_nil _)))))

/-! ### What is extracted -/

/-- The code of a block of the text. It stands behind an opening and goes on to the next fence, or
to the end of the text if there is none. -/
def IsCode (t code : Text) : Prop :=
  ∃ a v r, t = a ++ (fence ++ (v ++ (code ++ r))) ∧ IsOpening v ∧ ¬ fence <:+: code ∧
    (r = [] ∨ fence <+: r)

/-- The line end behind the name of the language can be read as a part of the code. -/
theorem exists_isCode_of_reads {r : Text} (ho : o ∈ openings) (hv : o.Reads v [])
    (ht : t = a ++ (fence ++ (v ++ (code ++ r)))) (hcode : ¬ fence <:+: code)
    (hr : r = [] ∨ fence <+: r) : ∃ whole, IsCode t whole ∧ whole.trim = code.trim := by
  obtain ⟨w, g, rfl, hw, hg, hfree⟩ := exists_opening_of_reads ho hv
  refine ⟨g ++ code, ⟨a, w, r, ?_, hw, not_fence_infix_append hfree hcode, hr⟩,
    trim_append_of_gap hg code⟩
  rw [ht]
  simp only [List.append_assoc]

/-- The first block that is found is a block of the text. -/
theorem exists_isCode_of_blocks (hm : (blocks.findSome? fun b => b.find? t) = some m) :
    ∃ code, IsCode t code ∧ code.trim = (m.get ()).trim := by
  rw [blocks, List.findSome?_append, Option.or_eq_some_iff] at hm
  rcases hm with hm | ⟨hclosed, hm⟩ <;>
    obtain ⟨b, hb, hm⟩ := List.exists_of_findSome?_eq_some hm <;>
    obtain ⟨o, ho, rfl⟩ := List.mem_map.1 hb
  · obtain ⟨a, v, code, r, ht, hv, hcode, rfl⟩ :=
      exists_of_find?_closed (isPlain_of_mem_openings ho) hm
    exact exists_isCode_of_reads ho hv ht hcode (.inr (List.prefix_append fence r))
  · obtain ⟨a, v, code, ht, hv, rfl⟩ := exists_of_find?_open (isPlain_of_mem_openings ho) hm
    refine exists_isCode_of_reads (r := []) ho hv (by rwa [List.append_nil]) ?_ (.inl rfl)
    -- With a fence behind its opening, this would be a closed block.
    rintro ⟨code, r, hcode⟩
    have hfound := isSome_find?_closed (isLocal_of_mem_openings ho) hv a code r
    rw [List.append_assoc] at hcode
    rw [hcode, ← ht, List.findSome?_eq_none_iff.1 hclosed _ (List.mem_map_of_mem ho)] at hfound
    cases hfound

/-- Where there is an opening, a block is found. -/
theorem isSome_blocks (h : HasOpening t) : (blocks.findSome? fun b => b.find? t).isSome := by
  obtain ⟨v, hv, a, code, rfl⟩ := h
  obtain ⟨o, ho, hreads⟩ := exists_reads_of_isOpening hv
  rw [List.findSome?_isSome_iff]
  refine ⟨block o stop, List.mem_append_right _ (List.mem_map_of_mem ho), ?_⟩
  have hfound := isSome_find?_open (isLocal_of_mem_openings ho) hreads a code
  simpa only [List.append_assoc, List.append_nil] using hfound

theorem infix_of_isCode (h : IsCode t code) : code <:+: t := by
  obtain ⟨a, v, r, rfl, -⟩ := h
  exact ⟨a ++ (fence ++ v), r, by simp only [List.append_assoc]⟩

theorem hasOpening_of_isCode (h : IsCode t code) : HasOpening t := by
  obtain ⟨a, v, r, rfl, hv, -⟩ := h
  exact ⟨v, hv, a, code ++ r, by simp only [List.append_assoc]⟩

/-- From a text with an opening the trimmed code of a block is extracted, a part of the text without
white space around it and without a fence; otherwise the trimmed text. -/
theorem extract_spec (t : Text) :
    (HasOpening t → extract t <:+: t ∧ (∀ c ∈ (extract t).head?, isSpace c = false) ∧
      (∀ c ∈ (extract t).getLast?, isSpace c = false) ∧ ¬ fence <:+: extract t ∧
      ∃ code, IsCode t code ∧ extract t = code.trim) ∧
    (¬ HasOpening t → extract t = t.trim) := by
  constructor
  · intro h
    obtain ⟨m, hm⟩ := Option.isSome_iff_exists.1 (isSome_blocks h)
    obtain ⟨code, hcode, htrim⟩ := exists_isCode_of_blocks hm
    have heq : extract t = code.trim := by rw [extract, hm, htrim]
    have hfree : ¬ fence <:+: code := by
      obtain ⟨_, _, _, -, -, hfree, -⟩ := hcode
      exact hfree
    rw [heq]
    exact ⟨(trim_isInfix code).trans (infix_of_isCode hcode), isSpace_of_head?_trim code,
      isSpace_of_getLast?_trim code, fun h => hfree (h.trans (trim_isInfix code)), code, hcode, rfl⟩
  · intro h
    have hnone : (blocks.findSome? fun b => b.find? t) = none := by
      refine Option.eq_none_iff_forall_ne_some.2 fun m hm => ?_
      obtain ⟨code, hcode, -⟩ := exists_isCode_of_blocks hm
      exact h (hasOpening_of_isCode hcode)
    rw [extract, hnone]

/-- A block with a long s in the name of its language, and a text without fences. -/
theorem extract_spec_long_s :
    (HasOpening "so: ```RUſT f() ``` g()" ∧
      ¬ fence <:+: extract "so: ```RUſT f() ``` g()") ∧
    (¬ HasOpening " f() " ∧ extract " f() " = trim " f() ") := by
  have hopening : HasOpening "so: ```RUſT f() ``` g()" :=
    ⟨"RUſT", .inr (by decide), by decide +kernel⟩
  have hno : ¬ HasOpening " f() " := by
    rintro ⟨v, -, h⟩
    exact absurd ((List.prefix_append fence v).isInfix.trans h) (by decide)
  exact ⟨⟨hopening, ((extract_spec _).1 hopening).2.2.2.1⟩, hno, (extract_spec _).2 hno⟩

example : extract "so: ```RUſT f() ``` g()" = "f()".toList := by
  decide +kernel

end Oxidize.Generated
