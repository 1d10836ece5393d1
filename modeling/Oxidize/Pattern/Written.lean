import Oxidize.Text.Basic

/-!
# Written patterns

Whether a text is a pattern in the usual notation of regular expressions, without look-around and
back-references. `isWellFormed` reads the text once and keeps the number of open groups, their
names, and whether there is something that a repetition can repeat. Each reader of a part answers
what follows the part, or nothing if the part is malformed.
-/

namespace Oxidize.Pattern.Written

/-- What a character with a backslash, or without one, stands for. -/
inductive Atom
  /-- A character. -/
  | char (c : Char)
  /-- A class of characters. -/
  | set
  /-- A place, such as the edge of a word. -/
  | place
  deriving DecidableEq

/-- The two-letter and one-letter names of the categories of characters. -/
def categories : List Text := List.map String.toList [
  "L", "Lu", "Ll", "Lt", "Lm", "Lo", "LC", "M", "Mn", "Mc", "Me", "N", "Nd", "Nl", "No", "P", "Pc",
  "Pd", "Ps", "Pe", "Pi", "Pf", "Po", "S", "Sm", "Sc", "Sk", "So", "Z", "Zs", "Zl", "Zp", "C", "Cc",
  "Cf", "Cs", "Co", "Cn"]

/-- Longer names of properties of characters. -/
def properties : List Text := List.map String.toList [
  "alphabetic", "any", "arabic", "ascii", "common", "cyrillic", "decimalnumber", "devanagari",
  "emoji", "greek", "han", "hangul", "hebrew", "hiragana", "katakana", "latin", "letter",
  "lowercase", "lowercaseletter", "mark", "number", "punctuation", "separator", "symbol", "thai",
  "uppercase", "uppercaseletter", "whitespace"]

/-- Whether a name is that of a property. Case, spaces, hyphens and underscores in it do not
matter. -/
def isProperty (name : Text) : Bool :=
  let plain := ((name.filter fun c => c ≠ '_' && c ≠ '-' && c ≠ ' ').map Char.toLower)
  properties.contains plain || (categories.map fun t => t.map Char.toLower).contains plain

/-- The property behind the letter p or P. -/
def readProperty : Text → Option Text
  | '{' :: r =>
    let name := r.takeWhile (· ≠ '}')
    let name := if name.head? = some '^' then name.drop 1 else name
    match r.dropWhile (· ≠ '}') with
    | _ :: rest => if isProperty name then some rest else none
    | [] => none
  | c :: r => if isProperty [c] then some r else none
  | [] => none

/-- The value of a hexadecimal digit. -/
def hexValue? (c : Char) : Option Nat :=
  if c.isDigit then some (c.toNat - '0'.toNat)
  else if 'a' ≤ c ∧ c ≤ 'f' then some (c.toNat - 'a'.toNat + 10)
  else if 'A' ≤ c ∧ c ≤ 'F' then some (c.toNat - 'A'.toNat + 10)
  else none

/-- The character with a given number in hexadecimal digits. -/
def numbered? (digits : Text) : Option Char := do
  let vs ← digits.mapM hexValue?
  let n := vs.foldl (fun n d => 16 * n + d) 0
  if !vs.isEmpty && n.isValidChar then some (Char.ofNat n) else none

/-- A character by its number: in braces, or with the given count of digits. -/
def readNumber (count : Nat) : Text → Option (Char × Text)
  | '{' :: r =>
    match r.dropWhile (· ≠ '}') with
    | _ :: rest => (numbered? (r.takeWhile (· ≠ '}'))).map fun c => (c, rest)
    | [] => none
  | t =>
    if count ≤ t.length then (numbered? (t.take count)).map fun c => (c, t.drop count)
    else none

/-- What stands behind a backslash. -/
def readEscape : Text → Option (Atom × Text)
  | [] => none
  | c :: r =>
    if Text.includes "dDsSwW" [c] then some (.set, r)
    else if Text.includes "bBAz<>" [c] then some (.place, r)
    else if c = 'p' ∨ c = 'P' then (readProperty r).map fun rest => (.set, rest)
    else if c = 'x' then (readNumber 2 r).map fun (d, rest) => (.char d, rest)
    else if c = 'u' then (readNumber 4 r).map fun (d, rest) => (.char d, rest)
    else if c = 'U' then (readNumber 8 r).map fun (d, rest) => (.char d, rest)
    else if c = 'a' then some (.char '\x07', r)
    else if c = 'f' then some (.char '\x0c', r)
    else if c = 't' then some (.char '\t', r)
    else if c = 'n' then some (.char '\n', r)
    else if c = 'r' then some (.char '\r', r)
    else if c = 'v' then some (.char '\x0b', r)
    else if c.isAlphanum || 128 ≤ c.toNat then none
    else some (.char c, r)

/-- A member of a class: a character or an escape that is no place. -/
def readMember : Text → Option (Atom × Text)
  | [] => none
  | '\\' :: r => (readEscape r).filter fun m => m.1 ≠ .place
  | c :: r => some (.char c, r)

/-- A member of a class or a range of characters. -/
def readRange (t : Text) : Option Text := do
  let (first, r) ← readMember t
  match r with
  | '-' :: ']' :: _ => some r
  | '-' :: '-' :: _ => some r
  | '-' :: s =>
    let (last, rest) ← readMember s
    match first, last with
    | .char a, .char b => if a ≤ b then some rest else none
    | _, _ => none
  | _ => some r

/-- The names of the classes that stand between colons. -/
def classNames : List Text := List.map String.toList [
  "alnum", "alpha", "ascii", "blank", "cntrl", "digit", "graph", "lower", "print", "punct", "space",
  "upper", "word", "xdigit"]

/-- What follows a class name between colons, if one begins here. -/
def afterClassName? (t : Text) : Option Text :=
  classNames.findSome? fun name =>
    if Text.startsWith t ([':'] ++ name ++ [':', ']']) then some (t.drop (name.length + 3))
    else if Text.startsWith t ([':', '^'] ++ name ++ [':', ']']) then
      some (t.drop (name.length + 4))
    else none

/-- The inside of a class behind its opening bracket: a caret, hyphens, and a closing bracket that
stands for itself, each if it is there. -/
def afterOpening (t : Text) : Text :=
  let t := if t.head? = some '^' then t.drop 1 else t
  let r := t.dropWhile (· = '-')
  if r.length = t.length ∧ r.head? = some ']' then r.drop 1 else r

/-- The rest of a class inside of `depth` others, read in at most `n` steps. -/
def readClass : (n depth : Nat) → Text → Option Text
  | 0, _, _ => none
  | n + 1, depth, t =>
    match t with
    | [] => none
    | '[' :: r =>
      match afterClassName? r with
      | some rest => readClass n depth rest
      | none => readClass n (depth + 1) (afterOpening r)
    | ']' :: r => if depth = 0 then some r else readClass n (depth - 1) r
    | '&' :: '&' :: r => readClass n depth r
    | '-' :: '-' :: r => readClass n depth r
    | '~' :: '~' :: r => readClass n depth r
    | _ => (readRange t).bind (readClass n depth)

/-- A decimal number below 2^32, possibly with white space around it. -/
def readCount (t : Text) : Option (Nat × Text) :=
  let t := Text.trimStart t
  let digits := t.takeWhile Char.isDigit
  let n := digits.foldl (fun n c => 10 * n + (c.toNat - '0'.toNat)) 0
  if digits.isEmpty || Nat.pow 2 32 ≤ n then none
  else some (n, Text.trimStart (t.drop digits.length))

/-- The bounds of a repetition behind their opening brace. -/
def readBounds (t : Text) : Option Text := do
  let (least, r) ← readCount t
  match r with
  | '}' :: rest => some rest
  | ',' :: s =>
    match Text.trimStart s with
    | '}' :: rest => some rest
    | u =>
      let (most, v) ← readCount u
      match v with
      | '}' :: rest => if least ≤ most then some rest else none
      | _ => none
  | _ => none

/-- The text without a question mark at its start, which makes a repetition lazy. -/
def dropLazy : Text → Text
  | '?' :: r => r
  | t => t

/-- Whether a name of a group may begin with a character. -/
def beginsName (c : Char) : Bool :=
  c = '_' || (Text.isWord c && !c.isDigit)

/-- Whether a character may stand in the name of a group. -/
def isNameChar (c : Char) : Bool :=
  Text.isWord c || c = '.' || c = '[' || c = ']'

/-- The name of a group and what follows its closing angle bracket. -/
def readName (t : Text) : Option (Text × Text) :=
  let name := t.takeWhile isNameChar
  match t.drop name.length with
  | '>' :: rest => if name.head?.any beginsName then some (name, rest) else none
  | _ => none

/-- Whether a text is a list of flags, some of them possibly behind a minus sign. -/
def areFlags (t : Text) : Bool :=
  t.all (fun c => Text.includes "imsUuRx-" [c]) && t.getLast? ≠ some '-' && decide t.Nodup

/-- What a pattern has opened so far. -/
structure State where
  groups : Nat
  names : List Text
  /-- Whether a repetition may follow. -/
  repeatable : Bool

/-- The group behind an opening parenthesis and a question mark. -/
def openGroup (s : State) (t : Text) : Option (State × Text) :=
  let named (r : Text) : Option (State × Text) := do
    let (name, rest) ← readName r
    if s.names.contains name then none
    else some (⟨s.groups + 1, name :: s.names, false⟩, rest)
  match t with
  | 'P' :: '<' :: r => named r
  | '<' :: r => named r
  | _ =>
    let flags := t.takeWhile fun c => c ≠ ':' && c ≠ ')'
    if areFlags flags then
      match t.drop flags.length with
      | ':' :: rest => some ({ s with groups := s.groups + 1, repeatable := false }, rest)
      | ')' :: rest => if flags.isEmpty then none else some ({ s with repeatable := false }, rest)
      | _ => none
    else none

/-- Whether the rest of a pattern is well formed, read in at most `n` steps. -/
def check : (n : Nat) → State → Text → Bool
  | _, s, [] => s.groups = 0
  | 0, _, _ => false
  | n + 1, s, c :: r =>
    let item (rest : Text) := check n { s with repeatable := true } rest
    if c = '\\' then (readEscape r).any fun m => item m.2
    else if c = '[' then (readClass (r.length + 1) 0 (afterOpening r)).any item
    else if c = '(' then
      if r.head? = some '?' then
        (openGroup s (r.drop 1)).any fun (s, rest) => check n s rest
      else check n { s with groups := s.groups + 1, repeatable := false } r
    else if c = ')' then
      0 < s.groups && check n { s with groups := s.groups - 1, repeatable := true } r
    else if c = '|' then check n { s with repeatable := false } r
    else if c = '*' ∨ c = '+' ∨ c = '?' then s.repeatable && item (dropLazy r)
    else if c = '{' then s.repeatable && (readBounds r).any fun rest => item (dropLazy rest)
    else item r

/-- Whether a text is a pattern. -/
def isWellFormed (t : Text) : Bool :=
  check (t.length + 1) ⟨0, [], false⟩ t

end Oxidize.Pattern.Written
