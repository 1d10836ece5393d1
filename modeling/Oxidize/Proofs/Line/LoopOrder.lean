import Oxidize.Proofs.Line.LoopHeads

/-!
# The order of the loops

A line that is the head of a loop over a range is also the head of a loop over a collection. Here is
what depends on the order in which these four headers are tried. Among the three ranges nothing does
(`convertWith_of_perm`), since no line fits two of them. Between a range and a collection everything
does: the one that comes first recasts the line (`firstOf?_withLoops`), and they make different
lines of it (`Header.ne_of_forEach`). As it is, the ranges come first (`header?_of_mem_rangeLoops`).
-/

namespace Oxidize

open Text

namespace Header

/-- All headers, with the loops that begin with `for` in a given order. -/
def withLoops (loops : List Header) : List Header :=
  [functionTo, function, record, openBinding, binding] ++
    (loops ++ [whileLoop, elseIf, ifBranch, otherwise])

theorem withLoops_rangeLoops : withLoops (rangeLoops ++ [forEach]) = all :=
  rfl

end Header

namespace Line

open Header

variable {h k : Header} {hs ks loops front behind : List Header} {code line y z : Text}

/-- The first of some headers whose shape the code has, and what the code becomes. -/
def firstOf? (hs : List Header) (code : Text) : Option (Header × Text) :=
  hs.findSome? fun h => (h.form.recast? code).map fun t => (h, t)

/-- The code of a line, converted with these headers. -/
def convertCodeWith (hs : List Header) (code : Text) : Text :=
  match firstOf? hs code with
  | some (_, t) => inline t
  | none => (ended? (inline code)).getD (inline code)

/-- A line, converted with these headers. -/
def convertWith (hs : List Header) (line : Text) : Text :=
  let (code, comment) := Comment.split line
  if code.isBlank then line else convertCodeWith hs code ++ comment

theorem firstOf?_all (code : Text) : firstOf? Header.all code = header? code :=
  rfl

theorem convertWith_all (line : Text) : convertWith Header.all line = convert line :=
  rfl

theorem convertWith_congr
    (h : firstOf? hs (Comment.split line).1 = firstOf? ks (Comment.split line).1) :
    convertWith hs line = convertWith ks line := by
  simp only [convertWith, convertCodeWith, h]

theorem firstOf?_append :
    firstOf? (hs ++ ks) code = (firstOf? hs code).or (firstOf? ks code) :=
  List.findSome?_append

theorem firstOf?_cons_of_some (hy : h.form.recast? code = some y) :
    firstOf? (h :: hs) code = some (h, y) := by
  rw [firstOf?, List.findSome?_cons, hy]
  rfl

theorem firstOf?_eq_none (hhs : ∀ h ∈ hs, h.form.recast? code = none) :
    firstOf? hs code = none :=
  List.findSome?_eq_none_iff.2 fun h hh => Option.map_eq_none_iff.2 (hhs h hh)

/-- The order of some headers does not matter where no two of them fit. -/
theorem firstOf?_eq_some (hh : h ∈ hs) (hy : h.form.recast? code = some y)
    (honly : ∀ k ∈ hs, (k.form.recast? code).isSome → k = h) : firstOf? hs code = some (h, y) := by
  have hfits : (firstOf? hs code).isSome := by
    rw [firstOf?, List.findSome?_isSome_iff]
    exact ⟨h, hh, by simp [hy]⟩
  obtain ⟨found, hfound⟩ := Option.isSome_iff_exists.1 hfits
  obtain ⟨k, hk, hku⟩ := List.exists_of_findSome?_eq_some hfound
  obtain ⟨u, hu, rfl⟩ := Option.map_eq_some_iff.1 hku
  obtain rfl := honly k hk (by simp [hu])
  rw [hfound, Option.some.inj (hy.symm.trans hu)]

/-- The three ranges can be tried in any order. -/
theorem firstOf?_of_perm (hloops : loops.Perm rangeLoops) (code : Text) :
    firstOf? loops code = firstOf? rangeLoops code := by
  by_cases hfits : ∃ h ∈ rangeLoops, (h.form.recast? code).isSome
  · obtain ⟨h, hh, hx⟩ := hfits
    obtain ⟨y, hy⟩ := Option.isSome_iff_exists.1 hx
    have honly : ∀ k ∈ rangeLoops, (k.form.recast? code).isSome → k = h :=
      fun k hk hk' => eq_of_isSome_recast? hk hh hk' hx
    rw [firstOf?_eq_some hh hy honly,
      firstOf?_eq_some (hloops.mem_iff.2 hh) hy fun k hk => honly k (hloops.subset hk)]
  · have hnone : ∀ h ∈ rangeLoops, h.form.recast? code = none := by simpa using hfits
    rw [firstOf?_eq_none hnone, firstOf?_eq_none fun h hh => hnone h (hloops.subset hh)]

/-- No header that is tried before the loops fits a loop over a range. -/
theorem firstOf?_withLoops_of_some {found : Header × Text} (hh : h ∈ rangeLoops)
    (hy : h.form.recast? code = some y) (hfound : firstOf? loops code = some found) :
    firstOf? (withLoops loops) code = some found := by
  have hearlier : firstOf? [functionTo, function, record, openBinding, binding] code = none := by
    have hblock : ∀ k ∈ [functionTo, function, record, openBinding, binding],
        k.construct ≠ .block := by decide
    exact firstOf?_eq_none fun k hk => recast?_eq_none_of_mem_rangeLoops hh hy (hblock k hk)
  rw [withLoops, firstOf?_append, hearlier, Option.none_or, firstOf?_append, hfound,
    Option.some_or]

/-- The header of a loop over a range, if it fits, is the header of the line. -/
theorem header?_of_mem_rangeLoops (hh : h ∈ rangeLoops) (hy : h.form.recast? code = some y) :
    header? code = some (h, y) := by
  rw [← firstOf?_all, ← withLoops_rangeLoops]
  refine firstOf?_withLoops_of_some hh hy ?_
  rw [firstOf?_append, firstOf?_eq_some hh hy fun k hk hx =>
    eq_of_isSome_recast? hk hh hx (by simp [hy]), Option.some_or]

theorem convertWith_of_perm (hloops : loops.Perm rangeLoops) (line : Text) :
    convertWith (withLoops (loops ++ [forEach])) line = convert line := by
  rw [← convertWith_all, ← withLoops_rangeLoops]
  refine convertWith_congr ?_
  simp only [withLoops, firstOf?_append, firstOf?_of_perm hloops]

/-- Of a loop over a range and the loop over a collection, the one that is tried first decides. -/
theorem firstOf?_withLoops (hloops : (front ++ behind).Perm rangeLoops) (hh : h ∈ rangeLoops)
    (hy : h.form.recast? line = some y) (hz : forEach.form.recast? line = some z) :
    firstOf? (withLoops (front ++ forEach :: behind)) line =
      some (if h ∈ front then (h, y) else (forEach, z)) := by
  have honly : ∀ k ∈ front, (k.form.recast? line).isSome → k = h := fun k hk hx =>
    eq_of_isSome_recast? (hloops.subset (List.mem_append_left _ hk)) hh hx (by simp [hy])
  have hfront : firstOf? front line = if h ∈ front then some (h, y) else none := by
    split
    · rename_i hmem
      exact firstOf?_eq_some hmem hy honly
    · rename_i hmem
      refine firstOf?_eq_none fun k hk => ?_
      rw [← Option.not_isSome_iff_eq_none]
      exact fun hx => hmem (honly k hk hx ▸ hk)
  refine firstOf?_withLoops_of_some hh hy ?_
  rw [firstOf?_append, hfront]
  split
  · rfl
  · rw [Option.none_or, firstOf?_cons_of_some hz]

/-- A line fits the header of one of the three loops over ranges at most, and where it fits one of
them it fits the header of loops over collections too. So no line depends on the order of the three,
and in any arrangement of the four headers a line that is a loop over a range is recast by its own
header or by the one of collections, whichever stands first, and not in the same way. -/
theorem rangeLoops_shadow_forEach (line : Text) (hline : '\n' ∉ line) :
    (∀ h ∈ rangeLoops, ∀ k ∈ rangeLoops, (h.form.recast? line).isSome →
      (k.form.recast? line).isSome → h = k) ∧
    (∀ h ∈ rangeLoops, (h.form.recast? line).isSome → (forEach.form.recast? line).isSome) ∧
    (∀ loops, loops.Perm rangeLoops →
      convertWith (withLoops (loops ++ [forEach])) line = convert line) ∧
    ∀ h ∈ rangeLoops, ∀ y, h.form.recast? line = some y →
      ∃ z, forEach.form.recast? line = some z ∧ z ≠ y ∧
        ∀ front behind, (front ++ behind).Perm rangeLoops →
          firstOf? (withLoops (front ++ forEach :: behind)) line =
            some (if h ∈ front then (h, y) else (forEach, z)) := by
  refine ⟨fun h hh k hk => eq_of_isSome_recast? hh hk, fun h hh hx => isSome_forEach hh hx hline,
    fun loops hloops => convertWith_of_perm hloops line, fun h hh y hy => ?_⟩
  have hforEach : (forEach.form.recast? line).isSome := isSome_forEach hh (by simp [hy]) hline
  obtain ⟨z, hz⟩ := Option.isSome_iff_exists.1 hforEach
  exact ⟨z, hz, ne_of_forEach hh hy hz, fun front behind hloops =>
    firstOf?_withLoops hloops hh hy hz⟩

/-- A range of a range. It also shows in the converted line which header came first, since behind
the head of a collection it is the outer call that the inline forms take for a range. -/
theorem rangeLoops_shadow_forEach_nested :
    '\n' ∉ "for i in range(range(3)):".toList ∧
      rangeTo.form.recast? "for i in range(range(3)):" = some "for i in 0..range(3) \x7b" ∧
      firstOf? (withLoops [rangeStep, forEach, rangeTo, rangeBetween])
          "for i in range(range(3)):" = some (forEach, "for i in range(range(3)) \x7b".toList) ∧
      convertWith (withLoops [rangeStep, forEach, rangeTo, rangeBetween])
          "for i in range(range(3)):" ≠ convert "for i in range(range(3)):" := by
  have hline : '\n' ∉ "for i in range(range(3)):".toList := by decide
  have hrange : rangeTo.form.recast? "for i in range(range(3)):" =
      some "for i in 0..range(3) \x7b" := by
    decide +kernel
  have hforEach : forEach.form.recast? "for i in range(range(3)):" =
      some "for i in range(range(3)) \x7b" := by
    decide +kernel
  obtain ⟨-, -, -, harranged⟩ := rangeLoops_shadow_forEach _ hline
  obtain ⟨z, hz, -, hfirst⟩ := harranged rangeTo (by decide) _ hrange
  obtain rfl := Option.some.inj (hforEach.symm.trans hz)
  refine ⟨hline, hrange, ?_, by decide +kernel⟩
  exact hfirst [rangeStep] [rangeTo, rangeBetween] (by decide)

end Line

end Oxidize
