import Oxidize.Settings.Basic
import Oxidize.Toml.Library

/-!
# Stored settings

Settings are stored as TOML, which a library writes and reads. `save` hands it the settings, each
under its name, and the rules as a list of records. `load` takes the settings from the table that is
read: keys that are missing have their standard value, and keys that are no setting are ignored.
-/

namespace Oxidize

/-- Why stored settings cannot be used. -/
inductive StoredFault
  /-- The text is not TOML, or a setting has a value of a wrong kind. -/
  | malformed
  /-- A setting has a value that is not allowed. -/
  | refused (message : Text)
  deriving DecidableEq

/-- The record of a rule. -/
def Rule.record (r : Rule) : Toml.Record where
  fields := [("pattern", .text r.pattern), ("replacement", .text r.replacement)]
  bare := by
    simp only [List.forall_mem_cons]
    decide
  distinct := by
    show (["pattern", "replacement"] : List Text).Nodup
    decide

namespace Settings

open Toml

/-! ### Writing -/

/-- The settings but for the rules. -/
def record (s : Settings) : Record where
  fields := [("indent_width", .natural s.indentWidth), ("entry_point", .text s.entryPoint),
    ("wrap_entry_point", .boolean s.wrap)]
  bare := by
    simp only [List.forall_mem_cons]
    decide
  distinct := by
    show (["indent_width", "entry_point", "wrap_entry_point"] : List Text).Nodup
    decide

/-- The settings as they are handed over to be written. -/
def sheet (s : Settings) : Sheet where
  top := s.record
  key := "extra_rules"
  items := s.extraRules.map Rule.record
  bare := by decide
  fresh := by
    show ("extra_rules" : Text) ∉ (["indent_width", "entry_point", "wrap_entry_point"] : List Text)
    decide

/-- The text in which settings are stored, if the library writes one. -/
def save (s : Settings) (l : Library := .standard) : Option Text :=
  l.write s.sheet

/-! ### Reading -/

/-- A width, if a value is one. -/
def width? : Value → Option Nat
  | .integer n => if 0 ≤ n then some n.toNat else none
  | _ => none

/-- A text, if a value is one. -/
def text? : Value → Option Text
  | .text t => some t
  | _ => none

/-- A truth value, if a value is one. -/
def flag? : Value → Option Bool
  | .boolean b => some b
  | _ => none

/-- The rule of a table with its two keys. -/
def ruleOfTable? (t : Table) : Option Rule := do
  let pattern ← (← t.get? "pattern") |> text?
  let replacement ← (← t.get? "replacement") |> text?
  some ⟨pattern, replacement⟩

/-- A rule, if a value is one: a table, or an array of pattern and replacement. -/
def rule? : Value → Option Rule
  | .table t => ruleOfTable? t
  | .array (.text pattern :: .text replacement :: _) => some ⟨pattern, replacement⟩
  | _ => none

/-- A list of rules, if a value is one. -/
def rules? : Value → Option RuleTable
  | .array xs => xs.mapM rule?
  | _ => none

/-- The value of a setting, or its standard value if the key is missing. -/
def setting? {α : Type} (t : Table) (key : Text) (read : Value → Option α) (standard : α) :
    Option α :=
  match t.get? key with
  | none => some standard
  | some x => read x

/-- The settings of a table. -/
def ofTable? (t : Table) : Option Settings := do
  let base : Settings := {}
  let indentWidth ← setting? t "indent_width" width? base.indentWidth
  let entryPoint ← setting? t "entry_point" text? base.entryPoint
  let wrap ← setting? t "wrap_entry_point" flag? base.wrap
  let extraRules ← setting? t "extra_rules" rules? base.extraRules
  some { indentWidth, entryPoint, wrap, extraRules }

/-- The settings stored in a text. -/
def load (t : Text) (l : Library := .standard) : Except StoredFault Settings :=
  match (l.read t).bind ofTable? with
  | none => .error .malformed
  | some s =>
    match s.widthFault? with
    | none => .ok s
    | some message => .error (.refused message)

end Settings

end Oxidize
