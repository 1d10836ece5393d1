import Oxidize.Proofs.Converter.Results
import Oxidize.Proofs.Pattern.Reaches
import Oxidize.Proofs.Pattern.Search
import Oxidize.Proofs.Text.Unlines

/-!
# Prompts that come back

A prompt holds three fences: two around the script and an open one at its end. In a text that begins
with a prompt, the fence behind the script therefore looks like the start of a block without a
language, and the fence at the end of the prompt like its end. Closed blocks are looked for before
open ones, so what is extracted from a prompt and an answer behind it is this empty block and never
the answer (`extract_echo`).

* `reads_block`, what a code block is made of;
* `rest_of_fence`, where the fences of a text are.
-/

namespace Oxidize.Generated

open Pattern Text

variable {a t u v w x y z source answer : Text} {fs : List (Unit × Text)} {o e : Pattern Unit}

/-! ### Code blocks -/

/-- A code block: a fence, what belongs to it, the code and the end of the block. -/
theorem reads_block (ho : o.isPlain) (he : e.isPlain) :
    (block o e).Reads u fs ↔
      ∃ v code z, u = fence ++ (v ++ (code ++ z)) ∧ o.Reads v [] ∧ e.Reads z [] ∧
        fs = [((), code)] := by
  have hcode : (many .lazy (fun _ => true) : Pattern Unit).isPlain := rfl
  rw [block, reads_sequence_text]
  simp only [reads_sequence_plain ho, reads_sequence_field hcode, reads_sequence_plain he,
    reads_sequence_nil]
  constructor
  · rintro ⟨_, rfl, v, _, hv, rfl, code, _, _, -, rfl, rfl, z, _, hz, rfl, rfl, rfl⟩
    exact ⟨v, code, z, by simp, hv, hz, rfl⟩
  · rintro ⟨v, code, z, rfl, hv, hz, rfl⟩
    exact ⟨_, rfl, v, _, hv, rfl, code, _, [], ⟨fun _ _ => rfl, rfl⟩, rfl, rfl, z, [], hz,
      (List.append_nil z).symm, rfl, rfl⟩

theorem head?_of_reads_anyCase {d : Char} (h : (anyCase (d :: t)).Reads u []) :
    ∃ c r, u = c :: r ∧ sameLetter d c := by
  obtain ⟨_, r, _, _, ⟨⟨⟨c, hc, rfl⟩, -⟩, -⟩, rfl, -⟩ := h
  exact ⟨c, r, rfl, hc⟩

/-- The language of a block stands directly behind its fence. -/
theorem head?_of_reads_language (ho : o = anyCase "rust" ∨ o = seq (anyCase "rust") (Pattern.text "\n"))
    (h : o.Reads u []) : ∃ c r, u = c :: r ∧ sameLetter 'r' c := by
  rcases ho with rfl | rfl
  · exact head?_of_reads_anyCase h
  · obtain ⟨v, w, gs, hs, ⟨hv, -⟩, rfl, hnil⟩ := h
    obtain ⟨rfl, -⟩ := List.append_eq_nil_iff.1 hnil.symm
    obtain ⟨c, r, rfl, hc⟩ := head?_of_reads_anyCase hv
    exact ⟨c, r ++ w, rfl, hc⟩

/-! ### The fences of a text -/

theorem fence_eq : fence = ['`', '`', '`'] := rfl

/-- The first fence of a text, or a later one. -/
theorem rest_of_fence (hx : '`' ∉ x) (hz : z.head? ≠ some '`')
    (h : a ++ (fence ++ y) = x ++ (fence ++ z)) : y = z ∨ ∃ b, b ++ (fence ++ y) = z := by
  rcases List.append_eq_append_iff.1 h with ⟨k, rfl, hk⟩ | ⟨k, rfl, hk⟩ <;>
    rw [fence_eq] at hk
  · rcases k with _ | ⟨c, k⟩
    · exact .inl (List.append_cancel_left hk)
    · -- A fence that begins earlier would begin before all of them.
      obtain ⟨rfl, -⟩ := List.cons.inj hk
      exact absurd (by simp) hx
  · rcases k with _ | ⟨c, _ | ⟨d, _ | ⟨e, k⟩⟩⟩
    · exact .inl (List.append_cancel_left hk).symm
    · simp_all
    · simp_all
    · obtain ⟨-, -, -, rfl⟩ : '`' = c ∧ '`' = d ∧ '`' = e ∧ z = k ++ (fence ++ y) := by
        simpa [fence_eq] using hk
      exact .inr ⟨k, rfl⟩

/-- A prompt and an answer behind it. -/
def echo (source answer : Text) : Text :=
  prompt source ++ '\n' :: answer

/-- The fences of such a text, and what stands around them. -/
theorem echo_eq (source answer : Text) :
    echo source answer =
      "Convert the following Python code to equivalent Rust code:\n\n".toList ++
        (fence ++ ("python\n".toList ++ source ++ "\n".toList ++
          (fence ++ ("\n\n".toList ++ (fence ++ ("rust".toList ++ '\n' :: answer)))))) := by
  unfold echo prompt
  simp only [List.append_assoc]

/-- What stands behind a fence of such a text. -/
theorem rest_of_fence_echo (hsource : '`' ∉ source) (hanswer : '`' ∉ answer)
    (h : a ++ (fence ++ y) = echo source answer) :
    (∃ r, y = 'p' :: r) ∨ y = "\n\n".toList ++ (fence ++ ("rust".toList ++ '\n' :: answer)) ∨
      y = "rust".toList ++ '\n' :: answer := by
  have hscript : '`' ∉ "python\n".toList ++ source ++ "\n".toList := by simp [hsource]
  have hend : '`' ∉ "rust".toList ++ '\n' :: answer := by simp [hanswer]
  rw [echo_eq] at h
  rcases rest_of_fence (by decide) (by simp) h with rfl | ⟨b, h⟩
  · exact .inl ⟨_, rfl⟩
  rcases rest_of_fence hscript (by simp) h with rfl | ⟨b, h⟩
  · exact .inr (.inl rfl)
  rcases rest_of_fence (by decide) (by simp) h with rfl | ⟨b, h⟩
  · exact .inr (.inr rfl)
  · exact absurd (h ▸ by simp [fence]) hend

/-! ### What is extracted -/

/-- No closed block names its language: only the last fence has one behind it. -/
theorem find?_language_echo (ho : o = anyCase "rust" ∨ o = seq (anyCase "rust") (Pattern.text "\n"))
    (hsource : '`' ∉ source) (hanswer : '`' ∉ answer) :
    (block o (Pattern.text fence)).find? (echo source answer) = none := by
  have hplain : o.isPlain := by rcases ho with rfl | rfl <;> rfl
  rw [Option.eq_none_iff_forall_ne_some]
  intro m hm
  obtain ⟨a, u, r, ht, hreads⟩ := exists_reads_of_find? hm
  obtain ⟨v, code, z, rfl, hv, ⟨rfl, -⟩, -⟩ := (reads_block hplain rfl).1 hreads
  obtain ⟨c, v, rfl, hc⟩ := head?_of_reads_language ho hv
  have hfence : a ++ (fence ++ (c :: v ++ (code ++ (fence ++ r)))) = echo source answer := by
    rw [ht]
    simp only [List.append_assoc, List.cons_append]
  rcases rest_of_fence_echo hsource hanswer hfence with ⟨r, hy⟩ | hy | hy
  · obtain ⟨rfl, -⟩ := List.cons.inj hy
    exact absurd hc (by decide)
  · obtain ⟨rfl, -⟩ := List.cons.inj hy
    exact absurd hc (by decide)
  · have hend : '`' ∉ "rust".toList ++ '\n' :: answer := by simp [hanswer]
    exact absurd (hy ▸ by simp [fence_eq]) hend

/-- The empty block between the script and the answer is found. -/
theorem isSome_find?_echo (source answer : Text) :
    ((block (Pattern.text "\n") (Pattern.text fence)).find? (echo source answer)).isSome := by
  have hsplit : echo source answer =
      ("Convert the following Python code to equivalent Rust code:\n\n".toList ++
        (fence ++ ("python\n".toList ++ source ++ "\n".toList))) ++
          (fence ++ (['\n'] ++ (['\n'] ++ (fence ++ ("rust".toList ++ '\n' :: answer))))) := by
    rw [echo_eq]
    simp only [List.append_assoc]
    rfl
  rw [hsplit]
  exact isSome_findFrom? ((reaches_text fence _ _).sequence
    ((reaches_text ['\n'] _ _).sequence ((reaches_many fun _ _ => rfl).field.sequence
      ((reaches_text fence _ _).sequence (reaches_nil _)))))

/-- A prompt and an answer behind it hide the answer. -/
theorem extract_echo (hsource : '`' ∉ source) (hanswer : '`' ∉ answer) :
    extract (echo source answer) = [] := by
  obtain ⟨m, hm⟩ := Option.isSome_iff_exists.1 (isSome_find?_echo source answer)
  obtain ⟨a, u, r, ht, hreads⟩ := exists_reads_of_find? hm
  obtain ⟨_, code, _, rfl, ⟨rfl, -⟩, ⟨rfl, -⟩, hfields⟩ := (reads_block rfl rfl).1 hreads
  have hfence : a ++ (fence ++ ('\n' :: (code ++ (fence ++ r)))) = echo source answer := by
    rw [ht]
    simp only [List.append_assoc]
    rfl
  have hcode : code = ['\n'] := by
    rcases rest_of_fence_echo hsource hanswer hfence with ⟨r, hy⟩ | hy | hy
    · exact absurd (List.cons.inj hy).1 (by decide)
    · -- The block ends where the next fence begins, and that is the last one.
      have hend : '`' ∉ "rust".toList ++ '\n' :: answer := by simp [hanswer]
      have hrest : code ++ (fence ++ r) =
          ['\n'] ++ (fence ++ ("rust".toList ++ '\n' :: answer)) := (List.cons.inj hy).2
      rcases rest_of_fence (by decide) (by simp) hrest with rfl | ⟨b, h⟩
      · exact List.append_cancel_right hrest
      · exact absurd (h ▸ by simp [fence_eq]) hend
    · exact absurd (List.cons.inj hy).1 (by decide)
  have hget : m.get () = ['\n'] := by
    rw [Match.get, hfields, hcode]
    rfl
  have hblocks : (blocks.findSome? fun b => b.find? (echo source answer)) = some m := by
    simp only [blocks, openings, List.map_cons, List.cons_append, List.findSome?_cons,
      find?_language_echo (.inl rfl) hsource hanswer,
      find?_language_echo (.inr rfl) hsource hanswer, hm]
  rw [extract, hblocks]
  simp only [hget]
  rfl

/-- From a prompt and an answer behind it nothing is extracted, so the answer only if it is blank. -/
theorem extract_prompt_append (hsource : '`' ∉ source) (hanswer : '`' ∉ answer) :
    extract (prompt source ++ '\n' :: answer) = [] ∧
      (extract (prompt source ++ '\n' :: answer) = answer.trim ↔ answer.isBlank) := by
  have hnil : extract (prompt source ++ '\n' :: answer) = [] := extract_echo hsource hanswer
  refine ⟨hnil, ?_⟩
  rw [hnil, eq_comm, trim_eq_nil_iff]

/-- An answer that is lost. -/
theorem extract_prompt_append_main :
    ('`' ∉ "x = 1".toList ∧ '`' ∉ "fn main() \x7b\x7d".toList) ∧
      extract (prompt "x = 1" ++ '\n' :: "fn main() \x7b\x7d".toList) = [] ∧
      (extract (prompt "x = 1" ++ '\n' :: "fn main() \x7b\x7d".toList) =
        trim "fn main() \x7b\x7d" ↔ isBlank "fn main() \x7b\x7d") := by
  have hsource : '`' ∉ "x = 1".toList := by decide
  have hanswer : '`' ∉ "fn main() \x7b\x7d".toList := by decide
  exact ⟨⟨hsource, hanswer⟩, extract_prompt_append hsource hanswer⟩

/-- An answer without fences does not come back from behind its prompt. -/
theorem extract_prompt_append_ne :
    ('`' ∉ "x = 1".toList ∧ '`' ∉ "fn main() \x7b\x7d".toList) ∧
      ¬ isBlank "fn main() \x7b\x7d" ∧
      extract (prompt "x = 1" ++ '\n' :: "fn main() \x7b\x7d".toList) ≠
        trim "fn main() \x7b\x7d" := by
  refine ⟨⟨?_, ?_⟩, ?_, ?_⟩ <;> decide +kernel

end Oxidize.Generated

namespace Oxidize.Converter

open Generated

/-- A code generator that repeats its prompt in front of the answer is of no use. -/
theorem generate_echo (c : Converter) {g : Generator} {source answer : Text} (hsource : '`' ∉ source)
    (hanswer : '`' ∉ answer) (hg : g (prompt source) = .text (echo source answer)) (w : Watch) :
    (c.generate g source w).result = .ok (.error (.generator "no code in generated text")) := by
  rw [result_generate, hg]
  simp only [extract_echo hsource hanswer, if_true]

end Oxidize.Converter
