import Oxidize.Proofs.Converter.Results

/-!
# Recovery

A conversion has a result however the stages of the rules break off. If they do, what is left is a
block of two comment lines on top of what the fallback gives, or these lines alone where the fallback
breaks off too (`convert_recovers`).

The stages around the rules report failures; a watch that breaks off at these reports would break off
the conversion itself, so their lemmas ask for one that does not (`Watch.WithinRules`).
-/

namespace Oxidize

/-- The watch breaks off stages of the rules only: after the conversion of lines, or where blocks are
left open. -/
def Watch.WithinRules (w : Watch) : Prop :=
  ∀ e p, w e = some p → (∃ n, e = .linesConverted n) ∨ ∃ d, e = .blocksOpen d

theorem Watch.WithinRules.eq_none {w : Watch} (hw : w.WithinRules) (e : Event)
    (hl : ∀ n, e ≠ .linesConverted n) (hb : ∀ d, e ≠ .blocksOpen d) : w e = none := by
  rcases he : w e with _ | p
  · rfl
  · rcases hw e p he with ⟨n, hn⟩ | ⟨d, hd⟩
    · exact absurd hn (hl n)
    · exact absurd hd (hb d)

theorem Watch.WithinRules.passes {w : Watch} (hw : w.WithinRules) (f : Failure) :
    w (.generatorFailed f) = none :=
  hw.eq_none (.generatorFailed f) nofun nofun

/-! ### Comment lines -/

/-- A line of comment. -/
def Text.IsCommentLine (l : Text) : Prop :=
  "//".toList <+: l ∧ '\n' ∉ l

theorem Text.newline_not_mem_oneLine (t : Text) : '\n' ∉ t.oneLine := by
  rw [oneLine, List.mem_map]
  rintro ⟨c, -, hc⟩
  split at hc
  · exact absurd hc (by decide)
  · rename_i hne
    exact hne hc

instance (l : Text) : Decidable l.IsCommentLine :=
  inferInstanceAs (Decidable (_ ∧ _))

theorem Text.IsCommentLine.append_oneLine {l : Text} (h : l.IsCommentLine) (t : Text) :
    (l ++ t.oneLine).IsCommentLine := by
  refine ⟨h.1.trans (List.prefix_append _ _), ?_⟩
  rw [List.mem_append, not_or]
  exact ⟨h.2, newline_not_mem_oneLine t⟩

theorem Failure.isCommentLine_headline (f : Failure) : f.headline.IsCommentLine :=
  Text.IsCommentLine.append_oneLine (by decide) _

namespace Converter

open Text

variable {w : Watch}

/-- A failure in front of what the fallback came to. -/
def recovered (f : Failure) : Except Payload Text → Text
  | .ok code => f.renderOver code
  | .error p => f.renderFatal (Failure.ofPayload p)

theorem recovered_eq_lines (f : Failure) (r : Except Payload Text) :
    ∃ second : Text, IsCommentLine second ∧ recovered f r =
      f.headline ++ '\n' :: second ++
        match r with
        | .ok code => "\n\n".toList ++ code
        | .error _ => [] := by
  rcases r with p | code
  · refine ⟨"// Fallback conversion failed: ".toList ++ (Failure.ofPayload p).message.oneLine,
      IsCommentLine.append_oneLine (by decide) _, ?_⟩
    rw [List.append_nil]
    exact List.append_assoc f.headline _ _
  · refine ⟨"// Falling back to rule-based conversion".toList, by decide, ?_⟩
    unfold recovered Failure.renderOver
    simp only [List.append_assoc]
    rfl

/-! ### Reports that pass -/

theorem result_recover (hw : w.WithinRules) (f : Failure) (x : Stage Text) :
    (recover f x w).result = .ok (recovered f (x w).result) := by
  rw [recover, Stage.result_bind, Stage.result_attempt]
  rcases (x w).result with p | code
  · exact Stage.result_report_bind (hw.eq_none (.fallbackFailed (Failure.ofPayload p)) nofun nofun) _
  · rfl

theorem result_byRules (hw : w.WithinRules) (c : Converter) (source : Text) :
    (c.byRules source w).result = .ok ((c.rulesFault? source w).elim
      ⟨Layout.finish c.settings (Line.convertAll (c.rules.apply source)), none⟩
      fun p => ⟨recovered (Failure.ofPayload p) (c.fallback source w).result,
        some (Failure.ofPayload p)⟩) := by
  rw [byRules, Stage.result_bind, result_tryConvert]
  rcases c.rulesFault? source w with _ | p
  · rfl
  · refine (Stage.result_report_bind
      (hw.eq_none (.conversionFailed (Failure.ofPayload p)) nofun nofun) _).trans ?_
    rw [Stage.result_bind, result_recover hw]
    rfl

/-- A conversion always has a result. It has no failure exactly if the generator gives usable code or
the conversion by rules goes through; else that conversion's failure is told on the first of two
comment lines, which stand alone or, with an empty line between, on top of what the fallback gives. -/
theorem convert_recovers (c : Converter) (source : Text) (w : Watch) (hw : w.WithinRules) :
    ∃ r, (c.convert source w).result = .ok r ∧
      (r.failure? = none ↔
        (∃ g t, c.generator? = some g ∧ g (Generated.prompt source) = .text t ∧
          Generated.extract t ≠ []) ∨
        ∃ code, (c.tryConvert source w).result = .ok (.ok code)) ∧
      ∀ f, r.failure? = some f →
        (c.tryConvert source w).result = .ok (.error f) ∧
        ∃ first second : Text, IsCommentLine first ∧
          (f.message.map fun c => if c = '\n' then ' ' else c) <:+ first ∧ IsCommentLine second ∧
          r.code = first ++ '\n' :: second ++
            match (c.fallback source w).result with
            | .ok code => "\n\n".toList ++ code
            | .error _ => [] := by
  rw [← usable?_ne_none_iff, result_convert hw.passes, result_byRules hw, result_tryConvert]
  rcases c.usable? source with _ | code
  · rcases c.rulesFault? source w with _ | p
    · exact ⟨_, rfl, iff_of_true rfl (.inr ⟨_, rfl⟩), nofun⟩
    · refine ⟨_, rfl, iff_of_false nofun ?_, ?_⟩
      · rintro (h | ⟨code, h⟩)
        · exact h rfl
        · exact nomatch h
      · rintro f ⟨⟩
        obtain ⟨second, hsecond, heq⟩ := recovered_eq_lines (Failure.ofPayload p)
          (c.fallback source w).result
        exact ⟨rfl, _, second, Failure.isCommentLine_headline _, List.suffix_append _ _, hsecond,
          heq⟩
  · exact ⟨_, rfl, iff_of_true rfl (.inl nofun), nofun⟩

/-- An open block of which the fallback knows nothing, and a message of two lines. -/
theorem convert_recovers_open_block :
    let w : Watch := fun e => if e = .blocksOpen 1 then some (.text "a\nb") else none
    w.WithinRules ∧
      ∃ first second : Text, IsCommentLine first ∧ "rewrite stage panicked: a b".toList <:+ first ∧
        IsCommentLine second ∧
        (standard.convert "if x:" w).result = .ok
          ⟨first ++ '\n' :: second ++ "\n\nfn main() \x7b\n    if x:\n\x7d".toList,
            some (.brokenOff "a\nb")⟩ := by
  intro w
  have hw : w.WithinRules := by
    intro e p he
    by_cases hd : e = .blocksOpen 1
    · exact .inr ⟨1, hd⟩
    · simp [w, hd] at he
  refine ⟨hw, ?_⟩
  obtain ⟨⟨code, failure?⟩, hr, -, hf⟩ := convert_recovers standard "if x:" w hw
  have hfailure : failure? = some (.brokenOff "a\nb") := by
    have h : (standard.convert "if x:" w).result.toOption.map Conversion.failure? =
        some (some (.brokenOff "a\nb")) := by
      decide +kernel
    rw [hr] at h
    exact Option.some.inj h
  have hfallback : (standard.fallback "if x:" w).result =
      .ok "fn main() \x7b\n    if x:\n\x7d".toList := by
    have hfault : openFault? w (standard.rules.apply "if x:").lines = none := by decide +kernel
    have hfinish : Layout.finish standard.settings (standard.rules.apply "if x:").lines =
        "fn main() \x7b\n    if x:\n\x7d".toList := by
      decide +kernel
    rw [result_fallback, hfault, hfinish]
    rfl
  obtain ⟨-, first, second, hfirst, hmessage, hsecond, hcode⟩ := hf _ hfailure
  rw [hfallback] at hcode
  refine ⟨first, second, hfirst, hmessage, hsecond, ?_⟩
  rw [hr, hfailure, show code = _ from hcode]
  rfl

end Converter

end Oxidize
