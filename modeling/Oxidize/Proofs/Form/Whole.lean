import Oxidize.Form.Ending
import Oxidize.Proofs.Form.Ending
import Oxidize.Proofs.Form.Header
import Oxidize.Proofs.Form.Indent

/-!
# Forms of whole texts

`recast?` drops what stands around the first match and `recastAll` keeps it. For a form of whole
texts there is nothing to drop: a search finds the whole text or nothing (`matchAt?_of_find?`), so
that the one match that is replaced is the text itself (`replaceAll_of_find?`). The forms of headers
and endings, which a line is recast by as a whole, are of this kind (`Line.takesWhole_of_mem`).
-/

namespace Oxidize

open Pattern

namespace Pattern

variable {p : Pattern Field} {t : Text} {m : Match Field}

/-- What a pattern of whole texts finds begins and ends with the text. -/
theorem matchAt?_of_find? (hp : p.isWhole) (h : p.find? t = some m) :
    p.matchAt? (.ofText t) = some m ∧ m.stop.rest = [] := by
  rw [isWhole, Bool.and_eq_true] at hp
  rw [find?_of_opensText hp.1] at h
  exact ⟨h, rest_eq_nil_of_closesText hp.2 (mem_ways_of_matchAt? h)⟩

/-- A text that a pattern of whole texts finds gives way as a whole. An empty text would be no
occurrence and stay. -/
theorem replaceAll_of_find? (hp : p.isWhole) (ht : t ≠ []) (expand : Match Field → Text)
    (h : p.find? t = some m) : p.replaceAll expand t = expand m := by
  obtain ⟨hmatch, hrest⟩ := matchAt?_of_find? hp h
  have hall : p.matchAt? ⟨none, t ++ []⟩ = some m := by
    rwa [List.append_nil]
  have hreplaced : p.replaceFrom expand 0 none (t ++ []) =
      expand m ++ p.replaceFrom expand 0 (t.getLast?.or none) [] :=
    replaceFrom_append_of_some ht hall hrest
  rwa [List.append_nil, replaceFrom_nil, List.append_nil] at hreplaced

end Pattern

/-- A form of whole texts that does not fit the empty one. -/
structure Form.TakesWhole (f : Form) : Prop where
  isWhole : f.pattern.isWhole
  find?_nil : f.pattern.find? [] = none

theorem Form.TakesWhole.recastAll_eq {f : Form} (hf : f.TakesWhole) (t : Text) :
    f.recastAll t = (f.recast? t).getD t := by
  cases hm : f.pattern.find? t with
  | none => rw [recastAll_eq_self hm, recast?, hm, Option.map_none, Option.getD_none]
  | some m =>
    have ht : t ≠ [] := by
      rintro rfl
      exact Option.some_ne_none m (hm.symm.trans hf.find?_nil)
    rw [recastAll, replaceAll_of_find? hf.isWhole ht f.expand hm, recast?, hm, Option.map_some,
      Option.getD_some]

theorem Header.takesWhole (h : Header) : h.form.TakesWhole :=
  ⟨h.isWhole_pattern, by cases h <;> rfl⟩

theorem Ending.takesWhole (e : Ending) : e.form.TakesWhole :=
  ⟨e.isWhole_pattern, by cases e <;> rfl⟩

namespace Line

/-- The forms that a line is recast by as a whole: those of the thirteen headers and of the three
endings. -/
def wholeForms : List Form :=
  Header.all.map Header.form ++ Ending.all.map Ending.form

example : wholeForms.length = 16 := rfl

theorem takesWhole_of_mem {f : Form} (hf : f ∈ wholeForms) : f.TakesWhole := by
  rcases List.mem_append.1 hf with hf | hf
  · obtain ⟨h, -, rfl⟩ := List.mem_map.1 hf
    exact h.takesWhole
  · obtain ⟨e, -, rfl⟩ := List.mem_map.1 hf
    exact e.takesWhole

/-- For the forms that a line is recast by as a whole it is the same whether the text around the
match is kept or dropped, also in texts of more than one line: there is none, since every match
begins and ends with the text. -/
theorem recastAll_whole {f : Form} (hf : f ∈ wholeForms) (t : Text) :
    f.recastAll t = (f.recast? t).getD t ∧
      ∀ m, f.pattern.find? t = some m →
        f.pattern.matchAt? (.ofText t) = some m ∧ m.stop.rest = [] :=
  have htakes := takesWhole_of_mem hf
  ⟨htakes.recastAll_eq t, fun _ hm => matchAt?_of_find? htakes.isWhole hm⟩

/-- The head of a function may go over two lines, and is still recast as one text. -/
theorem recastAll_whole_two_lines :
    Header.function.form ∈ wholeForms ∧
      Header.function.form.recastAll "fn f(a,\nb) :\n" = "fn f(a,\nb) \x7b" := by
  have hmem : Header.function.form ∈ wholeForms :=
    List.mem_append_left _ (List.mem_map_of_mem Header.function.mem_all)
  have hrecast : Header.function.form.recast? "fn f(a,\nb) :\n" = some "fn f(a,\nb) \x7b" := by
    decide +kernel
  refine ⟨hmem, ?_⟩
  rw [(recastAll_whole hmem "fn f(a,\nb) :\n").1, hrecast]
  rfl

end Line

end Oxidize
