import Oxidize.Proofs.Layout.Walk
import Oxidize.Proofs.Line.Blocks
import Oxidize.Proofs.Line.Heads
import Oxidize.Proofs.Line.Indentation

/-!
# Chains of branches

A branch, any number of further branches and a branch for all other cases, with bodies of blank
lines and assignments. The heads of all branches stand at one depth and the bodies one level deeper
(`reindentLines_branches`): the head of a further branch closes the block before it and opens its
own. One lemma for a body, one for each kind of head, and from these the walk through the chain.
-/

namespace Oxidize

open Pattern Text

/-- A word. -/
structure Word where
  text : Text
  run : Run isWord text

/-- A line in the body of a branch. -/
inductive BodyLine
  /-- White space. -/
  | blank (l : Text) (hl : Gap l)
  /-- An assignment behind any white space. -/
  | assignment (indent : Text) (hindent : Gap indent) (name value : Word)

/-- A condition and a body. -/
structure Branch where
  condition : Word
  body : List BodyLine

/-- A first branch, further ones, and a body for all other cases if there is one. -/
structure Branches where
  first : Branch
  further : List Branch
  last : Option (List BodyLine)

/-! ### In the script -/

/-- The line as it stands in the script. -/
def BodyLine.source : BodyLine → Text
  | blank l _ => l
  | assignment indent _ name value => indent ++ Line.wordAssignment name.text value.text

/-- The lines of a branch whose head begins with the given words. -/
def Branch.source (g : Guard) (b : Branch) : List Text :=
  g.line b.condition.text :: b.body.map BodyLine.source

/-- The lines for all other cases. -/
def lastSource (body : List BodyLine) : List Text :=
  "else:".toList :: body.map BodyLine.source

/-- The lines of a chain. -/
def Branches.source (bs : Branches) : List Text :=
  bs.first.source .ifBranch ++ bs.further.flatMap (Branch.source .elseIf) ++
    bs.last.elim [] lastSource

/-! ### In the code -/

namespace Layout

/-- The placed line of a body at a depth. -/
def placedLine (depth : Nat) : BodyLine → Placed
  | .blank _ _ => ⟨0, []⟩
  | .assignment _ _ name value => ⟨depth, Line.wordBinding name.text value.text⟩

/-- The placed lines of a branch whose head stands at a depth. -/
def placedBranch (depth : Nat) (g : Guard) (b : Branch) : List Placed :=
  ⟨depth, g.opening b.condition.text⟩ :: b.body.map (placedLine (depth + 1))

/-- The placed lines for all other cases. -/
def placedLast (depth : Nat) (body : List BodyLine) : List Placed :=
  ⟨depth, "\x7d else \x7b".toList⟩ :: body.map (placedLine (depth + 1))

/-- The placed lines of a chain. -/
def placedBranches (depth : Nat) (bs : Branches) : List Placed :=
  placedBranch depth .ifBranch bs.first ++ bs.further.flatMap (placedBranch depth .elseIf) ++
    bs.last.elim [] (placedLast depth)

end Layout

/-! ### Single lines -/

namespace Guard

theorem isCondition_word (w : Word) : IsCondition w.text where
  ne_nil := w.run.1
  newline := w.run.not_mem rfl
  parenthesis := w.run.not_mem rfl
  equals := w.run.not_mem rfl
  head := fun c hc => Line.isSpace_of_isWord (w.run.2 c (List.mem_of_mem_head? hc))
  last := fun c hc => Line.isSpace_of_isWord (w.run.2 c (List.mem_of_getLast? hc))

end Guard

namespace Line

theorem isPlace_of_isWord {c : Char} (hc : isWord c) : isPlace c := by
  rw [isPlace, hc, Bool.true_or]

theorem ink_of_word {t : Text} (ht : Run isWord t) : Run isInk t :=
  ⟨ht.1, fun c hc => isInk_iff.2 (isSpace_of_isWord (ht.2 c hc))⟩

/-- A word is no membership test, even if it is the word of one. -/
theorem makes_opening_word (m : Membership) (g : Guard) (w : Word) :
    m.Makes (g.opening w.text) (g.opening w.text) := by
  have hends := Membership.ends_brace m
  have hsplit : g.opening w.text = g.keyword ++ " " ++ (w.text ++ " \x7b") := by
    simp [Guard.opening]
  rw [hsplit]
  refine Guard.makes_keyword ?_ (.place (fun c hc => isPlace_of_isWord (w.run.2 c hc))
    hends.not_place hends.stops .brace)
  exact Membership.not_goesOn_of_not_path (v := []) (ink_of_word w.run) rfl rfl

theorem convert_branch (g : Guard) (w : Word) :
    convert (g.line w.text) = g.opening w.text := by
  rw [Guard.convert_line (Guard.isCondition_word w) (w.run.not_mem rfl) (w.run.not_mem rfl)]
  exact memberships_eq (makes_opening_word .absent g w) (makes_opening_word .present g w)

theorem makes_wordBinding (m : Membership) (name value : Word) :
    m.Makes (wordBinding name.text value.text) (wordBinding name.text value.text) := by
  have hplace (w : Word) : ∀ c ∈ w.text, isPlace c := fun c hc => isPlace_of_isWord (w.run.2 c hc)
  have hequals : Run isInk "=" := by decide
  have hne : "=".toList ≠ m.word := by cases m <;> decide
  have hsplit : wordBinding name.text value.text =
      "let" ++ ' ' :: (name.text ++ ' ' :: ("=" ++ ' ' :: (value.text ++ [';']))) := by
    simp [wordBinding]
  have hname : ¬ m.GoesOn (' ' :: (name.text ++ ' ' :: ("=" ++ ' ' :: (value.text ++ [';'])))) :=
    Membership.not_goesOn_of_not_path (ink_of_word name.run) rfl rfl
  have hsign : ¬ m.GoesOn (' ' :: ("=" ++ ' ' :: (value.text ++ [';']))) :=
    Membership.not_goesOn_of_ne hequals (by rintro _ ⟨rfl⟩; rfl) hne
  rw [hsplit]
  refine .place (by decide) (by rintro _ ⟨rfl⟩; rfl) hname (.other rfl ?_)
  refine .place (hplace name) (by rintro _ ⟨rfl⟩; rfl) hsign (.other rfl (.other rfl (.other rfl ?_)))
  exact .place (hplace value) (by rintro _ ⟨rfl⟩; rfl) (Membership.not_goesOn_cons rfl)
    (.other rfl .nil)

theorem convert_binding (name value : Word) :
    convert (wordAssignment name.text value.text) = wordBinding name.text value.text := by
  rw [convert_wordAssignment name.run value.run]
  exact memberships_eq (makes_wordBinding .absent name value) (makes_wordBinding .present name value)

/-- White space in front of a line without slashes stays there. -/
theorem convert_append_of_gap {w l : Text} (hw : Gap w) (hslash : '/' ∉ l) :
    convert (w ++ l) = w ++ convert l := by
  have hsplit {l : Text} (hslash : '/' ∉ l) : Comment.split l = (l, []) := by
    rw [Comment.split, Comment.cut_eq_none_of_not_mem hslash]
  have hslash' : '/' ∉ w ++ l := by simp [hw.not_mem (c := '/') rfl, hslash]
  rw [convert_eq, convert_eq, hsplit hslash, hsplit hslash', isBlank_append_of_gap hw]
  split
  · rfl
  · simp only [List.append_nil, convertCode_append hw]

theorem isBlank_convert_of_gap {l : Text} (hl : Gap l) : (convert l).isBlank := by
  have hblank : (Comment.split l).1.isBlank := by
    rw [Comment.split, Comment.cut_eq_none_of_not_mem (hl.not_mem rfl)]
    exact isBlank_iff_gap.2 hl
  rw [convert_eq, if_pos hblank]
  exact isBlank_iff_gap.2 hl

end Line

/-! ### The walk through a chain -/

namespace Layout

open Line

variable {depth depth' depth'' : Nat} {ls ks : List Text} {ps qs : List Placed} {l t : Text}

/-- From a depth on, lines are placed so and lead to another depth. -/
structure Lays (depth : Nat) (ls : List Text) (ps : List Placed) (depth' : Nat) : Prop where
  place_eq : place depth ls = ps
  finalDepth_eq : finalDepth depth ls = depth'

theorem Lays.nil (depth : Nat) : Lays depth [] [] depth :=
  ⟨rfl, rfl⟩

theorem Lays.append (h : Lays depth ls ps depth') (h' : Lays depth' ks qs depth'') :
    Lays depth (ls ++ ks) (ps ++ qs) depth'' := by
  refine ⟨?_, ?_⟩
  · rw [place_append, h.place_eq, h.finalDepth_eq, h'.place_eq]
  · rw [finalDepth_append, h.finalDepth_eq, h'.finalDepth_eq]

theorem lays_of_blank (hl : l.isBlank) (depth : Nat) : Lays depth [l] [⟨0, []⟩] depth :=
  ⟨place_cons_of_blank hl depth [], finalDepth_cons_of_blank hl depth []⟩

/-- A line is placed by what is left of it after trimming. -/
theorem lays_of_trim (hl : l.trim = t) (ht : t ≠ []) (depth : Nat) :
    Lays depth [l] [⟨depthAt depth t, t⟩] (depthAfter depth t) := by
  have hblank : ¬ l.isBlank := fun h => ht (hl ▸ trim_eq_nil_iff.2 h)
  refine ⟨?_, ?_⟩
  · rw [place_cons_of_ink hblank, hl, place_nil]
  · rw [finalDepth_cons_of_ink hblank, hl, finalDepth_nil]

/-- Code without slashes opens a block if it ends in a brace. -/
theorem opens_of_not_mem (hslash : '/' ∉ t) : opens t ↔ t.getLast? = some '{' := by
  rw [opens_iff, Comment.split, Comment.cut_eq_none_of_not_mem hslash]

/-! #### Bodies -/

theorem trim_wordBinding (name value : Text) : (wordBinding name value).trim =
    wordBinding name value :=
  trim_eq_self rfl rfl ("et " ++ name ++ " = " ++ value)

theorem lays_bodyLine (depth : Nat) (l : BodyLine) :
    Lays depth [convert l.source] [placedLine depth l] depth := by
  cases l with
  | blank l hl => exact lays_of_blank (isBlank_convert_of_gap hl) depth
  | assignment indent hindent name value =>
    have hslash : '/' ∉ wordAssignment name.text value.text := by
      simp [wordAssignment, name.run.not_mem (c := '/') rfl, value.run.not_mem (c := '/') rfl]
    have hslash' : '/' ∉ wordBinding name.text value.text := by
      simp [wordBinding, name.run.not_mem (c := '/') rfl, value.run.not_mem (c := '/') rfl]
    have htrim : (convert (BodyLine.assignment indent hindent name value).source).trim =
        wordBinding name.text value.text := by
      rw [BodyLine.source, convert_append_of_gap hindent hslash, convert_binding,
        trim_append_of_gap hindent, trim_wordBinding]
    have hcloses : closes (wordBinding name.text value.text) = false := rfl
    have hopens : opens (wordBinding name.text value.text) = false := by
      rw [Bool.eq_false_iff, ne_eq, opens_of_not_mem hslash', wordBinding, List.getLast?_append]
      rintro ⟨⟩
    have hlays := lays_of_trim htrim (by simp [wordBinding]) depth
    rwa [depthAfter, depthAt, hcloses, hopens] at hlays

theorem lays_body (depth : Nat) (body : List BodyLine) :
    Lays depth ((body.map BodyLine.source).map convert) (body.map (placedLine depth)) depth := by
  induction body with
  | nil => exact .nil depth
  | cons l body ih => exact (lays_bodyLine depth l).append ih

/-! #### Heads -/

theorem trim_opening (g : Guard) (condition : Text) :
    (g.opening condition).trim = g.opening condition := by
  have hsplit : g.opening condition = g.keyword ++ " " ++ condition ++ " " ++ ['{'] := by
    simp [Guard.opening]
  rw [hsplit]
  cases g with
  | whileLoop => exact trim_eq_self rfl rfl ("hile" ++ " " ++ condition ++ " ")
  | elseIf => exact trim_eq_self rfl rfl (" else if" ++ " " ++ condition ++ " ")
  | ifBranch => exact trim_eq_self rfl rfl ("f" ++ " " ++ condition ++ " ")

theorem opens_opening (g : Guard) (w : Word) : opens (g.opening w.text) := by
  have hkeyword : '/' ∉ g.keyword := by cases g <;> decide
  have hslash : '/' ∉ g.opening w.text := by
    simp [Guard.opening, hkeyword, w.run.not_mem (c := '/') rfl]
  rw [opens_of_not_mem hslash, Guard.opening, List.getLast?_append]
  rfl

/-- The head of a branch stands where it is placed by its first character, the body one level
deeper. -/
theorem lays_branch (depth : Nat) (g : Guard) (b : Branch) :
    Lays depth ((b.source g).map convert)
      (placedBranch (depthAt depth (g.opening b.condition.text)) g b)
      (depthAt depth (g.opening b.condition.text) + 1) := by
  have htrim : (convert (g.line b.condition.text)).trim = g.opening b.condition.text := by
    rw [convert_branch, trim_opening]
  have hhead := lays_of_trim htrim (by simp [Guard.opening]) depth
  rw [depthAfter, opens_opening] at hhead
  exact hhead.append (lays_body _ b.body)

/-- The first branch stands where the lines before it lead to. -/
theorem lays_first (depth : Nat) (b : Branch) :
    Lays depth ((b.source .ifBranch).map convert) (placedBranch depth .ifBranch b) (depth + 1) :=
  lays_branch depth .ifBranch b

/-- A further branch closes the block before it. -/
theorem lays_further (depth : Nat) (b : Branch) :
    Lays (depth + 1) ((b.source .elseIf).map convert) (placedBranch depth .elseIf b) (depth + 1) :=
  lays_branch (depth + 1) .elseIf b

theorem convert_otherwise : convert "else:" = "\x7d else \x7b".toList := by
  decide +kernel

/-- The last branch, too. -/
theorem lays_last (depth : Nat) (body : List BodyLine) :
    Lays (depth + 1) ((lastSource body).map convert) (placedLast depth body) (depth + 1) := by
  have htrim : (convert "else:").trim = "\x7d else \x7b".toList := by
    rw [convert_otherwise]
    decide
  have hhead := lays_of_trim htrim (by decide) (depth + 1)
  exact hhead.append (lays_body (depth + 1) body)

theorem lays_flatMap_further (depth : Nat) (bs : List Branch) :
    Lays (depth + 1) ((bs.flatMap (Branch.source .elseIf)).map convert)
      (bs.flatMap (placedBranch depth .elseIf)) (depth + 1) := by
  induction bs with
  | nil => exact .nil (depth + 1)
  | cons b bs ih =>
    rw [List.flatMap_cons, List.flatMap_cons, List.map_append]
    exact (lays_further depth b).append ih

/-- All branches of a chain stand at the depth that the lines before it lead to, their bodies one
level deeper. -/
theorem lays_branches (depth : Nat) (bs : Branches) :
    Lays depth (bs.source.map convert) (placedBranches depth bs) (depth + 1) := by
  rw [Branches.source, List.map_append, List.map_append]
  refine ((lays_first depth bs.first).append (lays_flatMap_further depth bs.further)).append ?_
  cases bs.last with
  | none => exact .nil (depth + 1)
  | some body => exact lays_last depth body

/-- Behind any lines a chain of branches is laid out so: the heads `if`, `else if` and `else` at the
depth to which these lines lead, the bodies one level deeper, and one block is left open. -/
theorem reindentLines_branches (context : List Text) (bs : Branches) (width : Nat) :
    let depth := finalDepth 0 context
    let ls := context ++ bs.source.map convert
    place 0 ls = place 0 context ++ placedBranches depth bs ∧
    reindentLines width ls =
      reindentLines width context ++ (placedBranches depth bs).map (Placed.render width) ∧
    finalDepth 0 ls = depth + 1 := by
  intro depth ls
  have hcontext : Lays 0 context (place 0 context) depth := ⟨rfl, rfl⟩
  have hlays := hcontext.append (lays_branches depth bs)
  refine ⟨hlays.place_eq, ?_, hlays.finalDepth_eq⟩
  rw [reindentLines, hlays.place_eq, List.map_append, reindentLines]

example : reindentLines 2 (["if a:", "x = y", " ", "else:", "  x = z"].map (convert ·.toList)) =
    ["if a \x7b", "  let x = y;", "", "\x7d else \x7b", "  let x = z;"].map String.toList := by
  decide +kernel

end Layout

end Oxidize
