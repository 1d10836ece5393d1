import Oxidize.Toml.Grammar
import Oxidize.Toml.Reader
import Oxidize.Toml.Writer

/-!
# Libraries for TOML

Documents are written and read by a `Library`. What can be relied on is that it follows TOML 1.0
(`Library.Conforms`): it writes documents that stand for what was to be written, and it does not
refuse a document and reads from it a table that the document stands for. How it writes a string,
whether a list becomes an array or a series of headers, and what it makes of other texts is open.
`Library.standard` is the writer and the reader of this project.
-/

namespace Oxidize.Toml

/-- A writer and a reader of TOML, each of which may refuse. -/
structure Library where
  write : Sheet → Option Text
  read : Text → Option Table

/-- The library follows TOML 1.0, as far as the grammar goes. -/
structure Library.Conforms (l : Library) : Prop where
  /-- Sheets whose numbers are integers of 64 bits are written. -/
  write_isSome : ∀ s : Sheet, s.fits → (l.write s).isSome
  /-- What is written is a document that stands for the table of the sheet. -/
  document_write : ∀ (s : Sheet) (d : Text), l.write s = some d → Document d s.table
  /-- From a document a table is read that the document stands for. -/
  document_read : ∀ (d : Text) (t : Table), Document d t → ∃ u, l.read d = some u ∧ Document d u

/-- The writer and the reader of this project. -/
def Library.standard : Library :=
  ⟨Sheet.write?, read?⟩

end Oxidize.Toml
