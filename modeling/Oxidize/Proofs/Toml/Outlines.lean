import Oxidize.Toml.Node

/-!
# What statements build

Assignments of new keys come behind what the open table holds, whether this is the root, a table
with a header or the last element of an array of tables (`Focus.build_assigns`). Hence the
statements of a section, behind any others, add one entry to the table of the document
(`Builds.table`, `Builds.items`).
-/

namespace Oxidize.Toml

variable {k : Text} {v : Value} {n : Node} {o root : Outline} {es t : Table} {ts : List Table}
  {ss : List Statement}

namespace Table

@[simp] theorem keys_nil : keys [] = [] := rfl

@[simp] theorem keys_cons (e : Text × Value) (t : Table) : keys (e :: t) = e.1 :: keys t := rfl

@[simp] theorem keys_append (t u : Table) : keys (t ++ u) = keys t ++ keys u :=
  List.map_append

end Table

namespace Outline

/-- The outline of assigned entries. -/
def ofTable (t : Table) : Outline :=
  t.map fun e => (e.1, .value e.2)

@[simp] theorem ofTable_nil : ofTable [] = [] := rfl

@[simp] theorem ofTable_cons (k : Text) (v : Value) (t : Table) :
    ofTable ((k, v) :: t) = (k, .value v) :: ofTable t := rfl

@[simp] theorem toTable_nil : toTable [] = [] := rfl

@[simp] theorem toTable_cons (k : Text) (n : Node) (o : Outline) :
    toTable ((k, n) :: o) = (k, n.toValue) :: toTable o := rfl

@[simp] theorem toTable_append (o p : Outline) : toTable (o ++ p) = toTable o ++ toTable p := by
  induction o with
  | nil => rfl
  | cons e o ih =>
    obtain ⟨k, n⟩ := e
    rw [List.cons_append, toTable_cons, toTable_cons, ih, List.cons_append]

@[simp] theorem toTable_ofTable (t : Table) : toTable (ofTable t) = t := by
  induction t with
  | nil => rfl
  | cons e t ih =>
    obtain ⟨k, v⟩ := e
    rw [ofTable_cons, toTable_cons, ih, Node.toValue]

theorem toTables_eq_map (os : List Outline) :
    toTables os = os.map fun o => .table (toTable o) := by
  induction os with
  | nil => rfl
  | cons o os ih => rw [toTables, ih, List.map_cons]

theorem not_mem_keys (hkeys : (root.toTable ++ (k, v) :: t : Table).keys.Nodup) :
    k ∉ root.toTable.keys := by
  rw [Table.keys_append, Table.keys_cons, List.nodup_append] at hkeys
  exact fun hmem => hkeys.2.2 k hmem k List.mem_cons_self rfl

/-! ### One key -/

section

variable (hk : k ∉ o.toTable.keys)

include hk

theorem update_of_not_mem (f : Option Node → Option Node) :
    o.update k f = (f none).map fun n => o ++ [(k, n)] := by
  induction o with
  | nil => rfl
  | cons e o ih =>
    obtain ⟨l, n⟩ := e
    rw [toTable_cons, Table.keys_cons, List.mem_cons, not_or] at hk
    rw [update, if_neg (Ne.symm hk.1), ih hk.2, Option.map_map]
    rfl

theorem update_concat (n : Node) (f : Option Node → Option Node) :
    update k f (o ++ [(k, n)]) = (f (some n)).map fun m => o ++ [(k, m)] := by
  induction o with
  | nil => exact if_pos rfl
  | cons e o ih =>
    obtain ⟨l, m⟩ := e
    rw [toTable_cons, Table.keys_cons, List.mem_cons, not_or] at hk
    rw [List.cons_append, update, if_neg (Ne.symm hk.1), ih hk.2, Option.map_map]
    rfl

theorem assign_of_not_mem (v : Value) : o.assign [] k v = some (o ++ [(k, .value v)]) :=
  update_of_not_mem hk _

end

/-! ### The open table -/

/-- The path leads to a table of the outline, and `around` is what stands around it. -/
def Focus (around : Outline → Outline) (path : List Text) : Prop :=
  ∀ f o, (around o).within .implied headerEnters f path = (f o).map around

theorem focus_root : Focus id [] := by
  intro f o
  rw [Option.map_id]
  rfl

theorem focus_table (hk : k ∉ root.toTable.keys) :
    Focus (fun o => root ++ [(k, .table .headed o)]) [k] := by
  intro f o
  rw [within, update_concat hk]
  show ((f o).map (Node.table .headed)).map _ = _
  rw [Option.map_map]
  rfl

theorem focus_element (hk : k ∉ root.toTable.keys) (earlier : List Outline) :
    Focus (fun o => root ++ [(k, .tables earlier o)]) [k] := by
  intro f o
  rw [within, update_concat hk]
  show ((f o).map (Node.tables earlier)).map _ = _
  rw [Option.map_map]
  rfl

end Outline

open Outline

namespace Statement

/-- The statements that assign the entries of a table. -/
def assigns (es : Table) : List Statement :=
  es.map fun e => .assign [] e.1 e.2

/-- The statements of elements of the array of tables under a key. -/
def items (k : Text) (ts : List Table) : List Statement :=
  ts.flatMap fun es => .element [] k :: assigns es

@[simp] theorem assigns_nil : assigns [] = [] := rfl

@[simp] theorem assigns_cons (k : Text) (v : Value) (es : Table) :
    assigns ((k, v) :: es) = .assign [] k v :: assigns es := rfl

theorem items_cons (k : Text) (es : Table) (ts : List Table) :
    items k (es :: ts) = .element [] k :: (assigns es ++ items k ts) :=
  List.flatMap_cons

end Statement

open Statement

theorem Draft.build_cons {d e : Draft} {s : Statement} (h : d.add s = some e)
    (ss : List Statement) : d.build (s :: ss) = e.build ss := by
  rw [build, h, Option.bind_some]

/-- The entries of a table are assigned one behind the other. -/
theorem Outline.Focus.build_assigns {around : Outline → Outline} {path : List Text}
    (h : Focus around path) (hkeys : (o.toTable ++ es : Table).keys.Nodup) (ss : List Statement) :
    Draft.build ⟨around o, path⟩ (assigns es ++ ss) =
      Draft.build ⟨around (o ++ ofTable es), path⟩ ss := by
  induction es generalizing o with
  | nil => simp
  | cons e es ih =>
    obtain ⟨k, v⟩ := e
    have hadd : (⟨around o, path⟩ : Draft).add (.assign [] k v) =
        some ⟨around (o ++ [(k, .value v)]), path⟩ := by
      rw [Draft.add, h, assign_of_not_mem (not_mem_keys hkeys)]
      rfl
    have hrest : (toTable (o ++ [(k, .value v)]) ++ es).keys.Nodup := by
      simpa [Node.toValue] using hkeys
    rw [assigns_cons, List.cons_append, Draft.build_cons hadd, ih hrest, List.append_assoc]
    rfl

/-! ### Sections -/

/-- Behind any statements, the given ones add a table to the one of the document. -/
def Builds (ss : List Statement) (t : Table) : Prop :=
  ∀ root path, (root.toTable ++ t : Table).keys.Nodup →
    (Draft.build ⟨root, path⟩ ss).map toTable = some (root.toTable ++ t)

theorem builds_nil : Builds [] [] := by
  intro root path _
  rw [List.append_nil]
  rfl

theorem Builds.concat (h : Builds ss t) (hn : n.toValue = v)
    (hkeys : (root.toTable ++ (k, v) :: t : Table).keys.Nodup) (path : List Text) :
    (Draft.build ⟨root ++ [(k, n)], path⟩ ss).map toTable = some (root.toTable ++ (k, v) :: t) := by
  have htable : toTable (root ++ [(k, n)]) ++ t = root.toTable ++ (k, v) :: t := by
    simp [hn]
  rw [h _ _ (by rwa [htable]), htable]

theorem Builds.table (h : Builds ss t) (hes : es.keys.Nodup) (k : Text) :
    Builds (.table [] k :: (assigns es ++ ss)) ((k, .table es) :: t) := by
  intro root path hkeys
  have hk := not_mem_keys hkeys
  have hadd : (⟨root, path⟩ : Draft).add (.table [] k) =
      some ⟨root ++ [(k, .table .headed [])], [k]⟩ := by
    rw [Draft.add, openTable, within, update_of_not_mem hk]
    rfl
  rw [Draft.build_cons hadd, (focus_table hk).build_assigns (by simpa using hes)]
  exact h.concat (by simp [Node.toValue]) hkeys _

/-- Every further element closes the one before it and becomes the open one. -/
theorem exists_build_items (hk : k ∉ root.toTable.keys) (hts : ∀ es ∈ ts, es.keys.Nodup)
    (earlier : List Outline) (last : Outline) (ss : List Statement) :
    ∃ earlier' last', Draft.build ⟨root ++ [(k, .tables earlier last)], [k]⟩ (items k ts ++ ss) =
        Draft.build ⟨root ++ [(k, .tables earlier' last')], [k]⟩ ss ∧
      (Node.tables earlier' last').toValue =
        .array (((earlier ++ [last]).map fun o => .table o.toTable) ++ ts.map .table) := by
  induction ts generalizing earlier last with
  | nil =>
    refine ⟨earlier, last, rfl, ?_⟩
    simp [Node.toValue, toTables_eq_map]
  | cons es ts ih =>
    rw [List.forall_mem_cons] at hts
    obtain ⟨earlier', last', hbuild, hvalue⟩ := ih hts.2 (earlier ++ [last]) (ofTable es)
    refine ⟨earlier', last', ?_, ?_⟩
    · have hadd : (⟨root ++ [(k, .tables earlier last)], [k]⟩ : Draft).add (.element [] k) =
          some ⟨root ++ [(k, .tables (earlier ++ [last]) [])], [k]⟩ := by
        rw [Draft.add, openElement, within, update_concat hk]
        rfl
      rw [items_cons, List.cons_append, Draft.build_cons hadd, List.append_assoc,
        (focus_element hk _).build_assigns (by simpa using hts.1)]
      exact hbuild
    · simp [hvalue]

theorem Builds.items (h : Builds ss t) (hts : ∀ es ∈ ts, es.keys.Nodup) (hne : ts ≠ []) (k : Text) :
    Builds (items k ts ++ ss) ((k, .array (ts.map .table)) :: t) := by
  intro root path hkeys
  have hk := not_mem_keys hkeys
  obtain ⟨es, ts, rfl⟩ := List.exists_cons_of_ne_nil hne
  rw [List.forall_mem_cons] at hts
  have hadd : (⟨root, path⟩ : Draft).add (.element [] k) =
      some ⟨root ++ [(k, .tables [] [])], [k]⟩ := by
    rw [Draft.add, openElement, within, update_of_not_mem hk]
    rfl
  obtain ⟨earlier, last, hbuild, hvalue⟩ := exists_build_items hk hts.2 [] (ofTable es) ss
  rw [items_cons, List.cons_append, Draft.build_cons hadd, List.append_assoc,
    (focus_element hk []).build_assigns (by simpa using hts.1)]
  rw [List.nil_append, hbuild]
  exact h.concat (by simpa using hvalue) hkeys _

/-- Assignments at the start of a document and then sections. -/
theorem ofStatements?_assigns_append (h : Builds ss t) (hkeys : (es ++ t : Table).keys.Nodup) :
    Table.ofStatements? (assigns es ++ ss) = some (es ++ t) := by
  have hes : (toTable [] ++ es : Table).keys.Nodup := by
    rw [Table.keys_append] at hkeys
    exact (List.nodup_append.1 hkeys).1
  have hroot := focus_root.build_assigns hes ss
  rw [Table.ofStatements?]
  simp only [id_eq, List.nil_append] at hroot
  rw [hroot, h _ _ (by rwa [toTable_ofTable]), toTable_ofTable]

end Oxidize.Toml
