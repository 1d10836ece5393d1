import Oxidize.Pattern.Basic

/-!
# Searching with patterns

`find?` is the leftmost match of a pattern in a text. `replaceAll` replaces the matches from left to
right without overlaps and keeps the text between them; a match of no characters is no occurrence.
-/

namespace Oxidize.Pattern

variable {ι : Type}

/-- The leftmost match in a text that stands behind the character `before`. -/
def findFrom? (p : Pattern ι) (before : Option Char) : Text → Option (Match ι)
  | [] => p.matchAt? ⟨before, []⟩
  | c :: r => p.matchAt? ⟨before, c :: r⟩ <|> findFrom? p (some c) r

/-- The leftmost match in a text. -/
def find? (p : Pattern ι) (t : Text) : Option (Match ι) :=
  p.findFrom? none t

/-- Replace the matches in a text behind the character `before`, where the first `skip` characters
belong to a match that is already replaced. -/
def replaceFrom (p : Pattern ι) (expand : Match ι → Text) (skip : Nat) (before : Option Char) :
    Text → Text
  | [] => []
  | c :: r =>
    match skip with
    | skip + 1 => replaceFrom p expand skip (some c) r
    | 0 =>
      match p.matchAt? ⟨before, c :: r⟩ with
      | none => c :: replaceFrom p expand 0 (some c) r
      | some m =>
        match r.length + 1 - m.stop.rest.length with
        | 0 => c :: replaceFrom p expand 0 (some c) r
        | taken + 1 => expand m ++ replaceFrom p expand taken (some c) r

/-- Replace every match in a text by what `expand` makes of it. -/
def replaceAll (p : Pattern ι) (expand : Match ι → Text) (t : Text) : Text :=
  p.replaceFrom expand 0 none t

@[simp] theorem findFrom?_nil (p : Pattern ι) (before : Option Char) :
    p.findFrom? before [] = p.matchAt? ⟨before, []⟩ := rfl

theorem findFrom?_cons (p : Pattern ι) (before : Option Char) (c : Char) (r : Text) :
    p.findFrom? before (c :: r) =
      (p.matchAt? ⟨before, c :: r⟩ <|> p.findFrom? (some c) r) := rfl

@[simp] theorem replaceFrom_nil (p : Pattern ι) (expand : Match ι → Text) (skip : Nat)
    (before : Option Char) : p.replaceFrom expand skip before [] = [] := rfl

@[simp] theorem replaceFrom_skip (p : Pattern ι) (expand : Match ι → Text) (skip : Nat)
    (before : Option Char) (c : Char) (r : Text) :
    p.replaceFrom expand (skip + 1) before (c :: r) = p.replaceFrom expand skip (some c) r :=
  rfl

end Oxidize.Pattern
