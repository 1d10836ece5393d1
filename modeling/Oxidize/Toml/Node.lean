import Oxidize.Toml.Value

/-!
# Documents under construction

A document grows statement by statement. Its `Outline` keeps, besides the values, how each table
came about, which decides what may still be added to it: a table that only a longer header implied
can get a header of its own, and one made by a dotted key can grow by dotted keys, but a table with
its own header is complete, and so is every assigned value. The last element of an array of tables
stays open for tables inside it.

`assign`, `openTable` and `openElement` add to an outline what one statement says, or refuse it.
`toTable` forgets how the tables came about.
-/

namespace Oxidize.Toml

/-- How a table came about. -/
inductive Origin
  /-- By the header of a table inside it. -/
  | implied
  /-- By a dotted key. -/
  | dotted
  /-- By its own header. -/
  | headed
  /-- As an element of an array of tables. -/
  | element
  deriving DecidableEq

/-- What stands under a key while a document grows. -/
inductive Node
  /-- An assigned value. -/
  | value (v : Value)
  | table (origin : Origin) (entries : List (Text × Node))
  /-- An array of tables with headers, the last of which is open. -/
  | tables (earlier : List (List (Text × Node))) (last : List (Text × Node))

/-- The keys of a table under construction, in order, with their nodes. -/
abbrev Outline := List (Text × Node)

mutual

/-- The value that a node has become. -/
def Node.toValue : Node → Value
  | .value v => v
  | .table _ es => .table (Outline.toTable es)
  | .tables earlier last => .array (Outline.toTables earlier ++ [.table (Outline.toTable last)])

/-- The table that an outline has become. -/
def Outline.toTable : Outline → Table
  | [] => []
  | (k, n) :: es => (k, n.toValue) :: Outline.toTable es

/-- The tables that outlines have become. -/
def Outline.toTables : List Outline → List Value
  | [] => []
  | o :: os => .table (Outline.toTable o) :: Outline.toTables os

end

namespace Outline

/-- Change what stands under a key; a new key comes last. -/
def update (key : Text) (f : Option Node → Option Node) : Outline → Option Outline
  | [] => (f none).map fun n => [(key, n)]
  | (k, n) :: es =>
    if k = key then (f (some n)).map fun m => (k, m) :: es
    else (update key f es).map fun o => (k, n) :: o

/-- Put a value under a new key. -/
def insert (key : Text) (v : Value) (o : Outline) : Option Outline :=
  o.update key fun
    | none => some (.value v)
    | some _ => none

/-- Change the table at the end of a path. Tables that are missing on the way are made as `fresh`
says; `enter` tells which tables the path may go through, and whether as its last step. -/
def within (fresh : Origin) (enter : (last : Bool) → Origin → Bool)
    (f : Outline → Option Outline) : (path : List Text) → Outline → Option Outline
  | [], o => f o
  | key :: path, o =>
    o.update key fun
      | none => (within fresh enter f path []).map (.table fresh)
      | some (.table origin es) =>
        if enter path.isEmpty origin then (within fresh enter f path es).map (.table origin)
        else none
      | some (.tables earlier last) =>
        if enter path.isEmpty .element then (within fresh enter f path last).map (.tables earlier)
        else none
      | some (.value _) => none

/-- A header goes through every table that is no assigned value. -/
def headerEnters (_ : Bool) (_ : Origin) : Bool :=
  true

/-- A dotted key ends in a table that dotted keys have made. On the way there it can also go through
a table that has no header of its own and through the last element of an array of tables. -/
def dottedEnters (last : Bool) (origin : Origin) : Bool :=
  origin = .dotted || !last && (origin = .implied || origin = .element)

/-- Assign a value to a dotted key, given as a path and a last key. -/
def assign (path : List Text) (key : Text) (v : Value) (o : Outline) : Option Outline :=
  o.within .dotted dottedEnters (insert key v) path

/-- Give a table its header. -/
def openTable (path : List Text) (key : Text) (o : Outline) : Option Outline :=
  o.within .implied headerEnters (fun p => p.update key fun
    | none => some (.table .headed [])
    | some (.table .implied es) => some (.table .headed es)
    | some _ => none) path

/-- Add an element to an array of tables. -/
def openElement (path : List Text) (key : Text) (o : Outline) : Option Outline :=
  o.within .implied headerEnters (fun p => p.update key fun
    | none => some (.tables [] [])
    | some (.tables earlier last) => some (.tables (earlier ++ [last]) [])
    | some _ => none) path

end Outline

/-- A statement of a document. -/
inductive Statement
  /-- The header of a table. -/
  | table (path : List Text) (key : Text)
  /-- The header of an element of an array of tables. -/
  | element (path : List Text) (key : Text)
  /-- An assignment in the table that is open. -/
  | assign (path : List Text) (key : Text) (v : Value)

/-- A document under construction and the path to the table that is open. -/
structure Draft where
  root : Outline
  opened : List Text

namespace Draft

/-- The document with one more statement, if that may stand here. -/
def add (d : Draft) : Statement → Option Draft
  | .table path key => (d.root.openTable path key).map fun o => ⟨o, path ++ [key]⟩
  | .element path key => (d.root.openElement path key).map fun o => ⟨o, path ++ [key]⟩
  | .assign path key v =>
    (d.root.within .implied Outline.headerEnters (Outline.assign path key v) d.opened).map
      fun o => ⟨o, d.opened⟩

/-- The outline of a document with the given statements. -/
def build (d : Draft) : List Statement → Option Outline
  | [] => some d.root
  | s :: ss => (d.add s).bind fun e => e.build ss

end Draft

/-- The table of a document, if its statements agree with each other. -/
def Table.ofStatements? (ss : List Statement) : Option Table :=
  (Draft.build ⟨[], []⟩ ss).map Outline.toTable

end Oxidize.Toml
