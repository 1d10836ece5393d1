import Oxidize.Proofs.Toml.Values

/-!
# Documents are read

A document is read as a list of statements (`Lists`), and these build the table that it stands for.
The parts of the grammar say which statements they add in front of what follows them: assignments
for the lines of a table (`Body.lists`), a header and assignments for each element of an array of
tables (`Items.lists`). The reader thus refuses no document of the grammar (`Document.read?_eq`),
and because it gives one result, a document stands for one table (`Document.unique`).
-/

namespace Oxidize.Toml

open Statement

variable {c : Char} {k s t u d : Text} {n : Nat} {i : Int} {x : Value} {statement : Statement}
  {ss : List Statement} {es tab tab' : Table} {ts : List Table}

/-! ### Single statements -/

theorem AssignmentAt.readStatement_eq (h : AssignmentAt (ValueAt maxDepth) s k x t)
    (ht : LineEnd false t u) : readStatement s = some (.assign [] k x, u) := by
  have hread := h.readAssignment_eq (readBy_valueAt maxDepth) .nil
  obtain ⟨c, r, rfl, -, hbracket, -⟩ := h.exists_cons
  rw [readStatement, hread]
  · show (skipComment false t).bind _ = _
    rw [ht.skipComment_eq]
    rfl
  · rintro r h
    exact hbracket (List.cons.inj h).1
  · rintro r h
    exact hbracket (List.cons.inj h).1

theorem HeaderAt.readStatement_table_eq (h : HeaderAt "]" s k t) :
    readStatement ('[' :: s) = some (.table [] k, t) := by
  cases h with
  | @mk s₁ s₂ s₃ _ _ h₁ hk h₂ h₃ =>
    have hkey := hk.readKey_eq (c := ']') (t := s₃) h₁ h₂ (by decide) (by decide)
    have hbracket : ∀ r, s ≠ '[' :: r := by
      rintro r rfl
      cases h₁ with
      | nil =>
        obtain ⟨c, u, hs, -, hc, -⟩ := hk.exists_cons
        exact hc (List.cons.inj hs).1.symm
      | cons hc => exact absurd hc (by decide)
    rw [readStatement, hkey]
    · show (skipComment false s₃).bind _ = _
      rw [h₃.skipComment_eq]
      rfl
    · exact hbracket

theorem HeaderAt.readStatement_element_eq (h : HeaderAt "]]" s k t) :
    readStatement ('[' :: '[' :: s) = some (.element [] k, t) := by
  cases h with
  | @mk s₁ s₂ s₃ _ _ h₁ hk h₂ h₃ =>
    have hkey := hk.readKey_eq (c := ']') (t := ']' :: s₃) h₁ h₂ (by decide) (by decide)
    rw [readStatement, hkey]
    show (skipComment false s₃).bind _ = _
    rw [h₃.skipComment_eq]
    rfl

theorem HeaderAt.length_lt {brackets : Text} (h : HeaderAt brackets s k t) :
    t.length < s.length := by
  cases h with
  | mk h₁ hk h₂ h₃ =>
    have hclose := h₂.length_le
    rw [List.length_append] at hclose
    have := h₁.length_le
    have := hk.length_lt
    have := h₃.length_lt
    omega

/-! ### Lists of statements -/

/-- The text is read as the given statements. -/
def Lists (s : Text) (ss : List Statement) : Prop :=
  ∀ n, s.length < n → readStatements n s = some ss

theorem lists_nil : Lists [] [] := by
  rintro (_ | n) hn
  · cases hn
  · rfl

theorem Lists.filler (ht : Lists t ss) (h : Filler s t) : Lists s ss := by
  rintro (_ | n) hn
  · cases hn
  · have hlength := h.length_le
    rw [readStatements, h.skipLines_eq, ← readStatements]
    exact ht (n + 1) (by omega)

theorem Lists.cons (ht : Lists t ss) (hc : isFillerChar c = false)
    (hread : readStatement (c :: s) = some (statement, t)) (hlength : t.length < (c :: s).length) :
    Lists (c :: s) (statement :: ss) := by
  rintro (_ | n) hn
  · cases hn
  · rw [readStatements, skipLines_cons hc]
    show (readStatement (c :: s)).bind _ = _
    rw [hread]
    show (readStatements n t).bind _ = _
    rw [ht n (by omega)]
    rfl

theorem Body.lists (h : Body s es t) (ht : Lists t ss) : Lists s (assigns es ++ ss) := by
  induction h with
  | nil h => exact ht.filler h
  | cons h₁ ha h₂ _ ih =>
    have hread := ha.readStatement_eq h₂
    -- The fuel suffices because every statement takes characters.
    have hlength := Nat.lt_trans h₂.length_lt (ha.length_lt (readBy_valueAt maxDepth))
    obtain ⟨c, u, rfl, hc, -⟩ := ha.exists_cons
    exact ((ih ht).cons hc hread hlength).filler h₁

theorem Items.lists (h : Items k s ts t) (ht : Lists t ss) : Lists s (items k ts ++ ss) := by
  induction h with
  | nil => exact ht
  | cons hk hb _ _ ih =>
    have hbody := hb.lists (ih ht)
    rw [items_cons, List.cons_append, List.append_assoc]
    exact hbody.cons (by decide) hk.readStatement_element_eq
      (Nat.lt_succ_of_lt (Nat.lt_succ_of_lt hk.length_lt))

theorem Items.keys_nodup (h : Items k s ts t) : ∀ es ∈ ts, es.keys.Nodup := by
  induction h with
  | nil => exact fun _ hmem => absurd hmem List.not_mem_nil
  | cons _ _ hkeys _ ih => exact List.forall_mem_cons.2 ⟨hkeys, ih⟩

/-- Sections are read as statements that build what they stand for. -/
theorem Sections.exists_lists (h : Sections s tab) : ∃ ss, Lists s ss ∧ Builds ss tab := by
  induction h with
  | nil => exact ⟨[], lists_nil, builds_nil⟩
  | @table s s₁ s₂ k es rest hk hb hkeys _ ih =>
    obtain ⟨ss, hlists, hbuilds⟩ := ih
    exact ⟨_, (hb.lists hlists).cons (by decide) hk.readStatement_table_eq
      (Nat.lt_succ_of_lt hk.length_lt), hbuilds.table hkeys k⟩
  | items hts hne _ ih =>
    obtain ⟨ss, hlists, hbuilds⟩ := ih
    exact ⟨_, hts.lists hlists, hbuilds.items hts.keys_nodup hne _⟩

/-! ### Documents -/

theorem Document.exists_lists (h : Document d tab) :
    ∃ ss, Lists d ss ∧ Table.ofStatements? ss = some tab := by
  cases h with
  | mk hb hs hkeys =>
    obtain ⟨ss, hlists, hbuilds⟩ := hs.exists_lists
    exact ⟨_, hb.lists hlists, ofStatements?_assigns_append hbuilds hkeys⟩

/-- No statement begins with a byte order mark. -/
theorem Lists.dropMark_eq (h : Lists d ss) : dropMark d = d := by
  rw [dropMark]
  rintro r rfl
  have hnone : readStatements (r.length + 2) ('\ufeff' :: r) = none := rfl
  exact Option.some_ne_none _ ((h _ (Nat.lt_succ_self _)).symm.trans hnone)

/-- The reader does not refuse a document and reads from it the table that it stands for. -/
theorem Document.read?_eq (h : Document d tab) : read? d = some tab := by
  obtain ⟨ss, hlists, hbuild⟩ := h.exists_lists
  rw [read?, hlists.dropMark_eq, hlists _ (Nat.lt_succ_self _)]
  exact hbuild

/-- The grammar is unambiguous. -/
theorem Document.unique (h : Document d tab) (h' : Document d tab') : tab = tab' :=
  Option.some.inj (h.read?_eq.symm.trans h'.read?_eq)

/-! ### Numbers in documents -/

theorem ScalarAt.integer_le (h : ScalarAt s (.integer i) t) : i ≤ maxInteger := by
  cases h with
  | natural hi =>
    simp only [maxInteger] at hi ⊢
    omega

theorem ValueAt.integer_le (h : ValueAt n s (.integer i) t) : i ≤ maxInteger := by
  cases n with
  | zero => exact ScalarAt.integer_le h
  | succ n =>
    rcases h with h | h
    · exact h.integer_le
    · cases h

theorem Body.integer_le (h : Body s es t) (hmem : (k, .integer i) ∈ es) : i ≤ maxInteger := by
  induction h with
  | nil => exact absurd hmem List.not_mem_nil
  | cons _ ha _ _ ih =>
    rcases List.mem_cons.1 hmem with heq | hmem
    · cases heq
      cases ha with
      | mk _ _ _ hx => exact hx.integer_le
    · exact ih hmem

theorem Sections.not_mem_integer (h : Sections s tab) : (k, .integer i) ∉ tab := by
  induction h with
  | nil => exact List.not_mem_nil
  | table _ _ _ _ ih | items _ _ _ ih => simpa using ih

/-- A document holds no number that is too large for an integer. -/
theorem Document.integer_le (h : Document d tab) (hmem : (k, .integer i) ∈ tab) :
    i ≤ maxInteger := by
  cases h with
  | mk hb hs =>
    exact hb.integer_le ((List.mem_append.1 hmem).resolve_right hs.not_mem_integer)

end Oxidize.Toml
