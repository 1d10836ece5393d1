import Oxidize.Toml.Node
import Oxidize.Toml.Quotation
import Oxidize.Toml.Scalar

/-!
# Reading TOML

A document is a list of statements, each on a line of its own (`readStatements`). `read?` is the
table that they describe, for a text that follows TOML 1.0. Values may be nested 79 deep, and a
dotted key has at most 79 parts.
-/

namespace Oxidize.Toml

/-- The text without the spaces and tabs at its start. -/
def skipBlanks (t : Text) : Text :=
  t.dropWhile isBlankChar

/-- The text from the end of the line on, if only blanks and a comment stand before it. -/
def skipComment (inComment : Bool) : Text → Option Text
  | [] => some []
  | c :: r =>
    if c = '\n' then some r
    else if c = '\r' ∧ r.head? = some '\n' then skipComment inComment r
    else if inComment then
      if isPrintable c then skipComment true r else none
    else if isBlankChar c then skipComment false r
    else if c = '#' then skipComment true r
    else none

/-- The text without blanks, line ends and comments at its start. -/
def skipLines (inComment : Bool) : Text → Option Text
  | [] => some []
  | c :: r =>
    if c = '\n' then skipLines false r
    else if c = '\r' ∧ r.head? = some '\n' then skipLines inComment r
    else if inComment then
      if isPrintable c then skipLines true r else none
    else if isBlankChar c then skipLines false r
    else if c = '#' then skipLines true r
    else some (c :: r)

/-- Read one part of a key. -/
def readKeyPart : Text → Option (Text × Text)
  | '"' :: r => readBasic 0 r
  | '\'' :: r => readLiteral r
  | t =>
    let key := t.takeWhile isKeyChar
    if key.isEmpty then none else some (key, t.drop key.length)

/-- Read a key of at most `n` parts. Blanks around its parts do not matter. -/
def readParts : (n : Nat) → Text → Option (List Text × Text)
  | 0, _ => none
  | n + 1, t => do
    let (key, r) ← readKeyPart (skipBlanks t)
    match skipBlanks r with
    | '.' :: s => do
      let (keys, rest) ← readParts n s
      some (key :: keys, rest)
    | rest => some ([key], rest)

/-- Read a key, as the path before its last part and that part. -/
def readKey (t : Text) : Option ((List Text × Text) × Text) := do
  let (parts, rest) ← readParts maxDepth t
  let last ← parts.getLast?
  some ((parts.dropLast, last), rest)

/-- The text behind a character, if it begins with that. -/
def expect (c : Char) : Text → Option Text
  | [] => none
  | d :: r => if d = c then some r else none

/-- Read a key, an equals sign and a value. -/
def readAssignment (value : Text → Option (Value × Text)) (t : Text) :
    Option ((List Text × Text × Value) × Text) := do
  let ((path, key), r) ← readKey t
  let s ← expect '=' r
  let (v, rest) ← value (skipBlanks s)
  some ((path, key, v), rest)

/-- Read the elements of an array up to its end, at most `n` of them. -/
def readElements (value : Text → Option (Value × Text)) :
    (n : Nat) → Text → Option (List Value × Text)
  | 0, _ => none
  | n + 1, t => do
    match ← skipLines false t with
    | ']' :: rest => some ([], rest)
    | s =>
      let (v, r) ← value s
      match ← skipLines false r with
      | ']' :: rest => some ([v], rest)
      | ',' :: u => do
        let (vs, rest) ← readElements value n u
        some (v :: vs, rest)
      | _ => none

/-- Read the assignments of an inline table up to its end into `o`, at most `n` of them. -/
def readEntries (value : Text → Option (Value × Text)) :
    (n : Nat) → Outline → Text → Option (Table × Text)
  | 0, _, _ => none
  | n + 1, o, t => do
    let ((path, key, v), r) ← readAssignment value t
    let o ← o.assign path key v
    match skipBlanks r with
    | '}' :: rest => some (o.toTable, rest)
    | ',' :: s => readEntries value n o s
    | _ => none

/-- Read a value that is nested at most `depth` deep. -/
def readValue (depth : Nat) (t : Text) : Option (Value × Text) :=
  match t with
  | [] => none
  | c :: r =>
    if c = '"' ∨ c = '\'' then (readString t).map fun (s, rest) => (.text s, rest)
    else if c = '[' then
      match depth with
      | 0 => none
      | depth + 1 =>
        (readElements (readValue depth) t.length r).map fun (vs, rest) => (.array vs, rest)
    else if c = '{' then
      match depth with
      | 0 => none
      | depth + 1 =>
        match skipBlanks r with
        | '}' :: rest => some (.table [], rest)
        | s =>
          (readEntries (readValue depth) t.length [] s).map fun (es, rest) => (.table es, rest)
    else readScalar t

/-- Read a statement up to the end of its line. -/
def readStatement (t : Text) : Option (Statement × Text) :=
  match t with
  | '[' :: '[' :: r => do
    let ((path, key), s) ← readKey r
    let u ← (expect ']' s).bind (expect ']')
    some (.element path key, ← skipComment false u)
  | '[' :: r => do
    let ((path, key), s) ← readKey r
    let u ← expect ']' s
    some (.table path key, ← skipComment false u)
  | _ => do
    let ((path, key, v), r) ← readAssignment (readValue maxDepth) t
    some (.assign path key v, ← skipComment false r)

/-- Read the statements of a text, at most `n` of them. -/
def readStatements : (n : Nat) → Text → Option (List Statement)
  | 0, _ => none
  | n + 1, t => do
    match ← skipLines false t with
    | [] => some []
    | s =>
      let (statement, rest) ← readStatement s
      let statements ← readStatements n rest
      some (statement :: statements)

/-- The text without a byte order mark. -/
def dropMark : Text → Text
  | '\ufeff' :: r => r
  | t => t

/-- The table of a document, if the text is one. -/
def read? (t : Text) : Option Table := do
  let statements ← readStatements (t.length + 1) (dropMark t)
  Table.ofStatements? statements

end Oxidize.Toml
