import Oxidize.Form.Inline
import Oxidize.Proofs.Form.Recasts
import Oxidize.Proofs.Form.Shapes

/-!
# Inline forms as rules on texts

`Inline.Turns i x y` lists what the inline forms replace by what: one constructor for each form,
with the named parts as variables. `Inline.turns_of_recasts` says that the patterns and templates of
the forms allow nothing else; `Membership.Turns` is the same for membership tests.
-/

namespace Oxidize

open Pattern Text

/-- What each inline form replaces by what. -/
inductive Inline.Turns : Inline → Text → Text → Prop
  | printFormat {format args : Text} (hformat : '"' ∉ format) (hargs : '\n' ∉ args) :
      Turns printFormat ("println!(\"" ++ format ++ "\".format(" ++ args ++ "))")
        ("println!(\"" ++ format ++ "\", " ++ args ++ ")")
  | printInterpolated {format : Text} (hformat : '"' ∉ format) :
      Turns printInterpolated ("println!(f\"" ++ format ++ "\"") ("println!(\"" ++ format ++ "\"")
  | printValue {c : Char} {arg : Text} (hc : beginsPrinted c) (harg : ')' ∉ arg) :
      Turns printValue ("println!(" ++ c :: arg ++ ")")
        ("println!(\"\x7b\x7d\", " ++ c :: arg ++ ")")
  | length {g arg g' : Text} (hg : Gap g) (harg : Run isPlace arg) (hg' : Gap g') :
      Turns length ("len(" ++ g ++ arg ++ g' ++ ")") (arg ++ ".len()")
  | rangeStep {g₁ lower g₂ g₃ upper g₄ g₅ step g₆ : Text} (h₁ : Gap g₁) (hlower : IsOperand lower)
      (h₂ : Gap g₂) (h₃ : Gap g₃) (hupper : IsOperand upper) (h₄ : Gap g₄) (h₅ : Gap g₅)
      (hstep : IsOperand step) (h₆ : Gap g₆) :
      Turns rangeStep
        ("range(" ++ g₁ ++ lower ++ g₂ ++ "," ++ g₃ ++ upper ++ g₄ ++ "," ++ g₅ ++ step ++ g₆ ++
          ")")
        ("(" ++ lower ++ ".." ++ upper ++ ").step_by(" ++ step ++ ")")
  | rangeBetween {g₁ lower g₂ g₃ upper g₄ : Text} (h₁ : Gap g₁) (hlower : IsOperand lower)
      (h₂ : Gap g₂) (h₃ : Gap g₃) (hupper : IsOperand upper) (h₄ : Gap g₄) :
      Turns rangeBetween ("range(" ++ g₁ ++ lower ++ g₂ ++ "," ++ g₃ ++ upper ++ g₄ ++ ")")
        (lower ++ ".." ++ upper)
  | rangeTo {g₁ upper g₂ : Text} (h₁ : Gap g₁) (hupper : IsOperand upper) (h₂ : Gap g₂) :
      Turns rangeTo ("range(" ++ g₁ ++ upper ++ g₂ ++ ")") ("0.." ++ upper)
  | interpolated {body : Text} (hbody : '"' ∉ body) :
      Turns interpolated ("f\"" ++ body ++ "\"") ("format!(\"" ++ body ++ "\")")

/-- What the membership forms replace by what. -/
inductive Membership.Turns : Membership → Text → Text → Prop
  | absent {item s s' collection : Text} (hitem : Run isPlace item) (hs : Run isSpace s)
      (hs' : Run isSpace s') (hcollection : Run isPath collection) :
      Turns absent (item ++ s ++ "!in" ++ s' ++ collection)
        ("!" ++ collection ++ ".contains(&" ++ item ++ ")")
  | present {item s s' collection : Text} (hitem : Run isPlace item) (hs : Run isSpace s)
      (hs' : Run isSpace s') (hcollection : Run isPath collection) :
      Turns present (item ++ s ++ "in" ++ s' ++ collection)
        (collection ++ ".contains(&" ++ item ++ ")")

theorem Inline.reads_range {operands : List (Pattern Field)} {x : Text} {fs : List (Field × Text)} :
    (range operands).Reads x fs ↔ ∃ t, (sequence operands).Reads t fs ∧ x = "range(" ++ t := by
  simp only [range, reads_sequence_edge, reads_sequence_text, reads_sequence_singleton, and_comm]

theorem Inline.turns_of_recasts {i : Inline} {x y : Text} (h : i.form.Recasts x y) :
    i.Turns x y := by
  obtain ⟨⟨stop, fs⟩, hm, rfl⟩ := h
  cases i with
  | printFormat =>
    simp (disch := decide) only [form, pattern, reads_sequence_text, reads_sequence_field,
      reads_sequence_nil] at hm
    obtain ⟨_, rfl, format, _, _, ⟨hformat, -⟩, rfl, rfl, _, rfl, args, _, _, ⟨hargs, -⟩, rfl, rfl,
      _, rfl, rfl, rfl⟩ := hm
    have := Turns.printFormat (not_mem_of_noneOf hformat (by decide))
      (newline_not_mem_of_inLine hargs)
    simpa [Form.expand, form, template, Piece.expand] using this
  | printInterpolated =>
    simp (disch := decide) only [form, pattern, reads_sequence_text, reads_sequence_field,
      reads_sequence_nil] at hm
    obtain ⟨_, rfl, format, _, _, ⟨hformat, -⟩, rfl, rfl, _, rfl, rfl, rfl⟩ := hm
    have := Turns.printInterpolated (not_mem_of_noneOf hformat (by decide))
    simpa [Form.expand, form, template, Piece.expand] using this
  | printValue =>
    simp (disch := decide) only [form, pattern, reads_sequence_text, reads_sequence_field,
      reads_seq_plain, reads_sequence_nil] at hm
    obtain ⟨_, rfl, _, _, _, ⟨_, arg, ⟨⟨c, hc, rfl⟩, -⟩, rfl, harg, -⟩, rfl, rfl, _, rfl, rfl,
      rfl⟩ := hm
    have := Turns.printValue hc (not_mem_of_noneOf harg (by decide))
    simpa [Form.expand, form, template, Piece.expand] using this
  | length =>
    simp (disch := decide) only [form, pattern, reads_sequence_edge, reads_sequence_text,
      reads_sequence_gap, reads_sequence_field, reads_chars, reads_sequence_nil] at hm
    obtain ⟨_, rfl, g, _, hg, rfl, arg, _, _, ⟨harg, -⟩, rfl, rfl, g', _, hg', rfl, _, rfl, rfl,
      rfl⟩ := hm
    have := Turns.length hg harg hg'
    simpa [Form.expand, form, template, Piece.expand] using this
  | rangeStep =>
    simp only [form, pattern, reads_range, reads_sequence_argument, reads_sequence_nil] at hm
    obtain ⟨_, ⟨g₁, lower, g₂, _, _, h₁, hlower, h₂, rfl, rfl, g₃, upper, g₄, _, _, h₃, hupper, h₄,
      rfl, rfl, g₅, step, g₆, _, _, h₅, hstep, h₆, rfl, rfl, rfl, rfl⟩, rfl⟩ := hm
    have := Turns.rangeStep h₁ hlower h₂ h₃ hupper h₄ h₅ hstep h₆
    simpa [Form.expand, form, template, Piece.expand] using this
  | rangeBetween =>
    simp only [form, pattern, reads_range, reads_sequence_argument, reads_sequence_nil] at hm
    obtain ⟨_, ⟨g₁, lower, g₂, _, _, h₁, hlower, h₂, rfl, rfl, g₃, upper, g₄, _, _, h₃, hupper, h₄,
      rfl, rfl, rfl, rfl⟩, rfl⟩ := hm
    have := Turns.rangeBetween h₁ hlower h₂ h₃ hupper h₄
    simpa [Form.expand, form, template, Piece.expand] using this
  | rangeTo =>
    simp only [form, pattern, reads_range, reads_sequence_argument, reads_sequence_nil] at hm
    obtain ⟨_, ⟨g₁, upper, g₂, _, _, h₁, hupper, h₂, rfl, rfl, rfl, rfl⟩, rfl⟩ := hm
    have := Turns.rangeTo h₁ hupper h₂
    simpa [Form.expand, form, template, Piece.expand] using this
  | interpolated =>
    simp (disch := decide) only [form, pattern, reads_sequence_edge, reads_sequence_text,
      reads_sequence_field, reads_sequence_nil] at hm
    obtain ⟨_, rfl, body, _, _, ⟨hbody, -⟩, rfl, rfl, _, rfl, rfl, rfl⟩ := hm
    have := Turns.interpolated (not_mem_of_noneOf hbody (by decide))
    simpa [Form.expand, form, template, Piece.expand] using this

theorem Membership.turns_of_recasts {m : Membership} {x y : Text} (h : m.form.Recasts x y) :
    m.Turns x y := by
  obtain ⟨⟨stop, fs⟩, hm, rfl⟩ := h
  cases m with
  | absent =>
    simp (disch := decide) only [form, test, reads_sequence_text, reads_sequence_space,
      reads_sequence_field, reads_chars, reads_sequence_nil] at hm
    obtain ⟨item, _, _, ⟨hitem, -⟩, rfl, rfl, s, _, hs, rfl, _, rfl, s', _, hs', rfl, collection,
      _, _, ⟨hcollection, -⟩, rfl, rfl, rfl, rfl⟩ := hm
    have := Turns.absent hitem hs hs' hcollection
    simpa [Form.expand, form, Piece.expand] using this
  | present =>
    simp (disch := decide) only [form, test, reads_sequence_text, reads_sequence_space,
      reads_sequence_field, reads_chars, reads_sequence_nil] at hm
    obtain ⟨item, _, _, ⟨hitem, -⟩, rfl, rfl, s, _, hs, rfl, _, rfl, s', _, hs', rfl, collection,
      _, _, ⟨hcollection, -⟩, rfl, rfl, rfl, rfl⟩ := hm
    have := Turns.present hitem hs hs' hcollection
    simpa [Form.expand, form, Piece.expand] using this

end Oxidize
