import Oxidize.Text.Basic

/-!
# Literal rules

A rule replaces one fixed text by another, wherever it stands: in names, comments and string
literals too. A table applies its rules one after the other, each to the result of the one before.

The order of the standard rules matters. The negated identity test stands before the plain one and
before plain negation, and negation turns `not in` into `!in`, which the membership forms expect.
-/

namespace Oxidize

/-- Replace one fixed text by another. -/
structure Rule where
  pattern : Text
  replacement : Text
  deriving DecidableEq

/-- Replace every occurrence of the pattern. A rule with an empty pattern does nothing. -/
def Rule.apply (r : Rule) (t : Text) : Text :=
  t.replaceAll r.pattern r.replacement

/-- A list of rules in the order of their application. -/
abbrev RuleTable := List Rule

namespace RuleTable

/-- Apply all rules, one after the other. -/
def apply (rules : RuleTable) (t : Text) : Text :=
  rules.foldl (fun u r => r.apply u) t

/-- The texts after those rules that changed something, with the position of the rule. -/
def changesFrom (position : Nat) (t : Text) : RuleTable → List (Nat × Text)
  | [] => []
  | r :: rules =>
    let u := r.apply t
    let later := changesFrom (position + 1) u rules
    if u = t then later else (position, u) :: later

/-- The steps of a table on a text that changed it. -/
def changes (rules : RuleTable) (t : Text) : List (Nat × Text) :=
  changesFrom 0 t rules

/-- The standard rules, from Python to Rust. -/
def standard : RuleTable := [
  ⟨"print(", "println!("⟩,
  ⟨"def ", "fn "⟩,
  ⟨"elif ", "\x7d else if "⟩,
  ⟨"True", "true"⟩,
  ⟨"False", "false"⟩,
  ⟨"import ", "use "⟩,
  ⟨"from ", "use "⟩,
  ⟨"class ", "struct "⟩,
  ⟨"__init__", "new"⟩,
  ⟨"try:", "// try equivalent"⟩,
  ⟨"except", "// except equivalent"⟩,
  ⟨"raise", "panic!"⟩,
  ⟨"lambda ", "|"⟩,
  ⟨" is not ", " != "⟩,
  ⟨" is ", " == "⟩,
  ⟨" and ", " && "⟩,
  ⟨" or ", " || "⟩,
  ⟨"not ", "!"⟩,
  ⟨"# ", "// "⟩]

@[simp] theorem apply_nil (t : Text) : apply [] t = t := rfl

@[simp] theorem apply_cons (r : Rule) (rules : RuleTable) (t : Text) :
    apply (r :: rules) t = apply rules (r.apply t) := rfl

@[simp] theorem apply_append (rules more : RuleTable) (t : Text) :
    apply (rules ++ more) t = apply more (apply rules t) := by
  simp [apply]

end RuleTable

end Oxidize
