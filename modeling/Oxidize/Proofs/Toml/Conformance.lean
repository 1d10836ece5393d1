import Oxidize.Proofs.Toml.Documents
import Oxidize.Proofs.Toml.Quoting
import Oxidize.Toml.Library

/-!
# The standard library follows TOML

What the writer makes of a sheet is a document that stands for the table of the sheet
(`Sheet.document_write`), part by part: a scalar, a line with an assignment, the lines of a record,
the items of the list. With the reader, which refuses no document, this is all that conformance asks
for (`Library.conforms_standard`).
-/

namespace Oxidize.Toml

variable {k w s t : Text} {n : Nat} {x : Value} {es : Table}

/-! ### Scalars and lines -/

theorem Scalar.scalarAt_write {x : Scalar} (hx : x.fits) (t : Text) :
    ScalarAt (x.write ++ '\n' :: t) x.value ('\n' :: t) := by
  have hend : ∀ c ∈ ('\n' :: t).head?, isTokenChar c = false := by
    rintro c ⟨rfl⟩
    decide
  cases x with
  | text v =>
    refine .text (stringAt_writeString v ?_)
    rintro c ⟨rfl⟩
    decide
  | natural i => exact .natural (by simpa [fits] using hx) hend
  | boolean b => exact .boolean hend

theorem ScalarAt.valueAt (h : ScalarAt s x t) : ValueAt n s x t := by
  cases n with
  | zero => exact h
  | succ n => exact .inl h

/-- A line that gives a key a value, in front of other lines. -/
theorem Body.entry (hk : isBareKey k) (hw : ValueAt maxDepth (w ++ '\n' :: s) x ('\n' :: s))
    (h : Body s es t) : Body (entry k w ++ s) ((k, x) :: es) t := by
  have hkey : KeyAt (k ++ ' ' :: '=' :: ' ' :: (w ++ '\n' :: s)) k
      (' ' :: '=' :: ' ' :: (w ++ '\n' :: s)) := by
    refine .bare hk ?_
    rintro c ⟨rfl⟩
    decide
  have hassign := AssignmentAt.mk hkey (.cons (by decide) .nil) (.cons (by decide) .nil) hw
  simpa [Toml.entry] using Body.cons .nil hassign .feed h

/-! ### Records -/

theorem Body.entries {fields : List (Text × Scalar)} (hbare : ∀ f ∈ fields, isBareKey f.1)
    (hfits : ∀ f ∈ fields, f.2.fits) (h : Body s es t) :
    Body (fields.flatMap (fun f => Toml.entry f.1 f.2.write) ++ s)
      (fields.map (fun f => (f.1, f.2.value)) ++ es) t := by
  induction fields with
  | nil => exact h
  | cons f fields ih =>
    rw [List.forall_mem_cons] at hbare hfits
    have hrest := ih hbare.2 hfits.2
    rw [List.flatMap_cons, List.append_assoc]
    exact hrest.entry hbare.1 (f.2.scalarAt_write hfits.1 _).valueAt

theorem Record.body_write {r : Record} (hr : r.fits) (h : Body s es t) :
    Body (r.write ++ s) (r.table ++ es) t :=
  h.entries r.bare (List.all_eq_true.1 hr)

theorem Record.body_write_filler {r : Record} (hr : r.fits) (h : Filler s t) :
    Body (r.write ++ s) r.table t := by
  simpa using r.body_write hr (.nil h)

theorem Record.keys_table (r : Record) : r.table.keys = r.fields.map Prod.fst := by
  simp [table, Table.keys, Function.comp_def]

theorem Record.nodup_keys_table (r : Record) : r.table.keys.Nodup := by
  rw [r.keys_table]
  exact r.distinct

/-! ### Lists of records -/

theorem headerAt_write (hk : isBareKey k) (s : Text) :
    HeaderAt "]]" (k ++ ']' :: ']' :: '\n' :: s) k s := by
  refine .mk .nil (.bare hk ?_) .nil .feed
  rintro c ⟨rfl⟩
  decide

/-- The items stand behind the line end that each of them begins with. -/
theorem exists_items_write (hk : isBareKey k) {items : List Record}
    (hitems : ∀ r ∈ items, r.fits) :
    ∃ s, Filler (items.flatMap (Record.writeItem k)) s ∧ Items k s (items.map Record.table) [] := by
  induction items with
  | nil => exact ⟨[], .nil, .nil⟩
  | cons r items ih =>
    rw [List.forall_mem_cons] at hitems
    obtain ⟨s, hfiller, hrest⟩ := ih hitems.2
    -- The line end in front of the next item is a blank line at the end of this one.
    have hbody := r.body_write_filler hitems.1 hfiller
    have hitem := Items.cons (headerAt_write hk _) hbody r.nodup_keys_table hrest
    refine ⟨_, ?_, hitem⟩
    simpa [Record.writeItem] using Filler.blank (.inr rfl) .nil

/-! ### Sheets -/

theorem Sheet.nodup_keys (s : Sheet) (x : Value) :
    (s.top.table ++ [(s.key, x)] : Table).keys.Nodup := by
  rw [Table.keys_append, s.top.keys_table, List.nodup_append]
  refine ⟨s.top.distinct, by simp, ?_⟩
  rintro l hl k hk rfl
  obtain rfl := List.mem_singleton.1 hk
  exact s.fresh hl

theorem Sheet.document_write {s : Sheet} {d : Text} (hd : s.write? = some d) :
    Document d s.table := by
  obtain ⟨hfits, rfl⟩ : s.fits ∧ _ = d := by
    simpa only [write?, Option.ite_none_right_eq_some, Option.some.injEq] using hd
  rw [fits, Bool.and_eq_true, List.all_eq_true] at hfits
  rw [table]
  split
  · rename_i hitems
    rw [List.isEmpty_iff] at hitems
    have harray : ValueAt maxDepth ("[]" ++ ['\n']) (.array []) ['\n'] :=
      .inr (.array (.close .nil))
    have hbody := s.top.body_write hfits.1 ((Body.nil .nil).entry s.bare harray)
    have hkeys := s.nodup_keys (.array [])
    rw [← List.append_nil (_ ++ _)] at hkeys
    simpa [hitems] using Document.mk hbody .nil hkeys
  · rename_i hitems
    rw [List.isEmpty_iff] at hitems
    obtain ⟨u, hfiller, hlist⟩ := exists_items_write s.bare hfits.2
    have hbody := s.top.body_write_filler hfits.1 hfiller
    have hsections := Sections.items hlist (by simpa using hitems) .nil
    simpa [Function.comp_def] using Document.mk hbody hsections (s.nodup_keys _)

/-- The project's writer and reader follow TOML 1.0. -/
theorem Library.conforms_standard : Library.standard.Conforms where
  write_isSome s hs := by
    show s.write?.isSome
    rw [Sheet.write?, if_pos hs]
    rfl
  document_write _ _ hd := Sheet.document_write hd
  document_read _ t hd := ⟨t, hd.read?_eq, hd⟩

end Oxidize.Toml
