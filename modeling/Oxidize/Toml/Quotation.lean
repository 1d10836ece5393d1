import Oxidize.Toml.Alphabet

/-!
# Strings of TOML

A string stands between double quotes, with escapes, or between single quotes, without. Three quotes
in place of one allow line ends in it. `readString` reads any of the four kinds.
-/

namespace Oxidize.Toml

/-- The escape behind a backslash: the character that it stands for, and what follows it. -/
def readEscape : Text → Option (Char × Text)
  | 'u' :: a :: b :: c :: d :: r => (numberedChar? [a, b, c, d]).map fun ch => (ch, r)
  | 'U' :: a :: b :: c :: d :: e :: f :: g :: h :: r =>
    (numberedChar? [a, b, c, d, e, f, g, h]).map fun ch => (ch, r)
  | c :: r => (escapedChar? c).map fun ch => (ch, r)
  | [] => none

/-- The number of characters of the escape that begins with the given one, behind its backslash. -/
def escapeLength : Char → Nat
  | 'u' => 5
  | 'U' => 9
  | _ => 1

/-- The rest of a string in double quotes, where the first `skip` characters belong to an escape
that is already read. -/
def readBasic (skip : Nat) : Text → Option (Text × Text)
  | [] => none
  | c :: r =>
    match skip with
    | skip + 1 => readBasic skip r
    | 0 =>
      if c = '"' then some ([], r)
      else if c = '\\' then do
        let (ch, _) ← readEscape r
        let (t, rest) ← readBasic (escapeLength (r.headD ' ')) r
        some (ch :: t, rest)
      else if isPrintable c then do
        let (t, rest) ← readBasic 0 r
        some (c :: t, rest)
      else none

/-- The rest of a string in single quotes. -/
def readLiteral : Text → Option (Text × Text)
  | [] => none
  | c :: r =>
    if c = '\'' then some ([], r)
    else if isPrintable c then do
      let (t, rest) ← readLiteral r
      some (c :: t, rest)
    else none

/-- The quotes with which a string between three quotes `q` ends here, as the text of those that
belong to the string, and what follows. Up to two quotes in front of the last three belong to it. -/
def closing? (q : Char) : Text → Option (Text × Text)
  | a :: b :: c :: r =>
    if a = q ∧ b = q ∧ c = q then
      match r with
      | d :: e :: s =>
        if d = q ∧ e = q then some ([q, q], s)
        else if d = q then some ([q], e :: s)
        else some ([], r)
      | [d] => if d = q then some ([q], []) else some ([], r)
      | [] => some ([], [])
    else none
  | _ => none

/-- Whether a line ends here, after spaces and tabs. -/
def endsLine (t : Text) : Bool :=
  match t.dropWhile isBlankChar with
  | '\n' :: _ => true
  | '\r' :: '\n' :: _ => true
  | _ => false

/-- Where the reader of a string over several lines stands. -/
inductive Reading
  /-- In the string. -/
  | plain
  /-- Behind a backslash at the end of a line: the white space that follows does not count. -/
  | joining
  /-- In an escape of which the given number of characters is left. -/
  | escape (left : Nat)
  deriving DecidableEq

/-- The rest of a string between three double quotes. -/
def readLongBasic (s : Reading) : Text → Option (Text × Text)
  | [] => none
  | c :: r =>
    match s with
    | .escape (left + 1) => readLongBasic (if left = 0 then .plain else .escape left) r
    | s =>
      if s = .joining ∧ (isBlankChar c ∨ c = '\n' ∨ (c = '\r' ∧ r.head? = some '\n')) then
        readLongBasic .joining r
      else
        match closing? '"' (c :: r) with
        | some (t, rest) => some (t, rest)
        | none =>
          if c = '\\' then
            if endsLine r then readLongBasic .joining r
            else do
              let (ch, _) ← readEscape r
              let (t, rest) ← readLongBasic (.escape (escapeLength (r.headD ' '))) r
              some (ch :: t, rest)
          else if c = '\r' ∧ r.head? = some '\n' then readLongBasic .plain r
          else if c = '\n' ∨ isPrintable c then do
            let (t, rest) ← readLongBasic .plain r
            some (c :: t, rest)
          else none

/-- The rest of a string between three single quotes. -/
def readLongLiteral : Text → Option (Text × Text)
  | [] => none
  | c :: r =>
    match closing? '\'' (c :: r) with
    | some (t, rest) => some (t, rest)
    | none =>
      if c = '\r' ∧ r.head? = some '\n' then readLongLiteral r
      else if c = '\n' ∨ isPrintable c then do
        let (t, rest) ← readLongLiteral r
        some (c :: t, rest)
      else none

/-- The text without a line end at its start. -/
def dropNewline : Text → Text
  | '\n' :: r => r
  | '\r' :: '\n' :: r => r
  | t => t

/-- Read a string of any kind. -/
def readString : Text → Option (Text × Text)
  | '"' :: '"' :: '"' :: r => readLongBasic .plain (dropNewline r)
  | '\'' :: '\'' :: '\'' :: r => readLongLiteral (dropNewline r)
  | '"' :: r => readBasic 0 r
  | '\'' :: r => readLiteral r
  | _ => none

end Oxidize.Toml
