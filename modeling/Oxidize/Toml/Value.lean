import Oxidize.Toml.Alphabet

/-!
# Values of TOML

A document stands for a table: keys in order, each with a value. A `Sheet` is the data of a simple
document: records of texts, natural numbers and truth values, of which one comes first and the
others are the items of a list under a key.
-/

namespace Oxidize.Toml

/-- What a key can stand for. Of floats, dates and times only the kind is kept. -/
inductive Value
  | text (t : Text)
  | integer (n : Int)
  | float
  | boolean (b : Bool)
  | moment
  | array (items : List Value)
  | table (entries : List (Text × Value))

/-- The keys of a table, in order, with their values. -/
abbrev Table := List (Text × Value)

namespace Table

/-- The keys of a table. -/
def keys (t : Table) : List Text :=
  t.map Prod.fst

/-- The value of a key. -/
def get? (t : Table) (key : Text) : Option Value :=
  t.lookup key

end Table

/-! ### Sheets -/

/-- The values that stand in records. -/
inductive Scalar
  | text (t : Text)
  | natural (n : Nat)
  | boolean (b : Bool)
  deriving DecidableEq

namespace Scalar

/-- A scalar as a value. -/
def value : Scalar → Value
  | text t => .text t
  | natural n => .integer n
  | boolean b => .boolean b

/-- Whether a number, if the scalar is one, has no more than 64 bits as an integer. -/
def fits : Scalar → Bool
  | natural n => n ≤ maxInteger.toNat
  | text _ | boolean _ => true

end Scalar

/-- Scalars under distinct keys that need no quotes. -/
structure Record where
  fields : List (Text × Scalar)
  bare : ∀ f ∈ fields, isBareKey f.1
  distinct : (fields.map Prod.fst).Nodup

namespace Record

/-- The table of a record. -/
def table (r : Record) : Table :=
  r.fields.map fun f => (f.1, f.2.value)

/-- Whether all numbers of a record are integers of 64 bits. -/
def fits (r : Record) : Bool :=
  r.fields.all fun f => f.2.fits

end Record

/-- A record and, under one more key, a list of records. -/
structure Sheet where
  top : Record
  key : Text
  items : List Record
  bare : isBareKey key
  fresh : key ∉ top.fields.map Prod.fst

namespace Sheet

/-- The table of a sheet. -/
def table (s : Sheet) : Table :=
  s.top.table ++ [(s.key, .array (s.items.map fun r => .table r.table))]

/-- Whether all numbers of a sheet are integers of 64 bits. -/
def fits (s : Sheet) : Bool :=
  s.top.fits && s.items.all Record.fits

end Sheet

end Oxidize.Toml
