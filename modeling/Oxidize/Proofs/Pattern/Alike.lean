import Mathlib.Data.List.Forall2
import Oxidize.Proofs.Pattern.Search

/-!
# What stands before a place

Of the text before a place a pattern sees one character at most, and only `start` and `edge` look
at it. A pattern that does not ask for the start of a text (`isMobile`) sees no more of it than
whether it belongs to a word. So at two places that agree in that and have the same text behind them
(`Cursor.Alike`) the ways to match are the same up to such places (`forall₂_ways`), and replacing
writes the same text (`replaceFrom_congr`).
-/

namespace Oxidize

variable {ι : Type}

/-- Two places with the same text behind them, both or neither of them behind a character of
words. -/
structure Cursor.Alike (s t : Cursor) : Prop where
  rest_eq : s.rest = t.rest
  word_eq : s.before.any Text.isWord = t.before.any Text.isWord

/-- Two matches with the same named parts that end at places that are alike. -/
structure Match.Alike (m n : Match ι) : Prop where
  stop : m.stop.Alike n.stop
  fields_eq : m.fields = n.fields

theorem Cursor.Alike.refl (s : Cursor) : s.Alike s :=
  ⟨rfl, rfl⟩

theorem Match.Alike.refl (m : Match ι) : m.Alike m :=
  ⟨.refl _, rfl⟩

theorem Match.Alike.follow {m n a b : Match ι} (h : m.Alike n) (h' : a.Alike b) :
    (m.follow a).Alike (n.follow b) :=
  ⟨h'.stop, congrArg₂ (· ++ ·) h.fields_eq h'.fields_eq⟩

namespace Cursor

variable {s t : Cursor} {before before' : Option Char} {r : Text}

theorem Alike.upTo_eq {u v : Cursor} (h : s.Alike t) (h' : u.Alike v) : s.upTo u = t.upTo v := by
  rw [upTo, upTo, h.rest_eq, h'.rest_eq]

theorem Alike.atEdge_eq (h : s.Alike t) : s.atEdge = t.atEdge := by
  rw [atEdge, atEdge, h.rest_eq, h.word_eq]

/-- Behind a character that is passed, what stood before it is forgotten. -/
theorem Alike.pass?_cons (h : s.Alike t) (d : Char) (u : Text) :
    s.pass? (d :: u) = t.pass? (d :: u) := by
  simp only [pass?, h.rest_eq]

theorem alike_skipFrom (set : Char → Bool) (h : before.any Text.isWord = before'.any Text.isWord)
    (r : Text) : (skipFrom set before r).Alike (skipFrom set before' r) := by
  cases r with
  | nil => exact ⟨rfl, h⟩
  | cons c r =>
    rw [skipFrom, skipFrom]
    split
    · exact .refl _
    · exact ⟨rfl, h⟩

end Cursor

namespace Pattern

variable {p : Pattern ι} {s t : Cursor} {before before' : Option Char}

/-- Whether a pattern never asks for the start of the text. -/
def isMobile : Pattern ι → Bool
  | seq p q => isMobile p && isMobile q
  | alt p q => isMobile p && isMobile q
  | star _ p => isMobile p
  | atomic p => isMobile p
  | field _ p => isMobile p
  | start => false
  | _ => true

theorem forall₂_alike_refl (ms : List (Match ι)) : List.Forall₂ Match.Alike ms ms :=
  List.forall₂_same.2 fun m _ => .refl m

theorem forall₂_alike_singleton (h : s.Alike t) :
    List.Forall₂ Match.Alike [(⟨s, []⟩ : Match ι)] [⟨t, []⟩] :=
  .cons ⟨h, rfl⟩ .nil

theorem forall₂_arrange {α : Type} {R : α → α → Prop} {further further' here here' : List α}
    (g : Greed) (hfurther : List.Forall₂ R further further') (hhere : List.Forall₂ R here here') :
    List.Forall₂ R (arrange g further here) (arrange g further' here') := by
  cases g
  · exact List.rel_append hfurther hhere
  · exact List.rel_append hhere hfurther

theorem forall₂_stops (g : Greed) (set : Char → Bool)
    (h : before.any Text.isWord = before'.any Text.isWord) (r : Text) :
    List.Forall₂ Cursor.Alike (stops g set before r) (stops g set before' r) := by
  cases r with
  | nil => exact .cons ⟨rfl, h⟩ .nil
  | cons c r =>
    have here : List.Forall₂ Cursor.Alike [⟨before, c :: r⟩] [⟨before', c :: r⟩] :=
      .cons ⟨rfl, h⟩ .nil
    rw [stops, stops]
    split
    · exact forall₂_arrange g (List.forall₂_same.2 fun s _ => .refl s) here
    · exact here

/-- Two matches in a row are related as the first ones are, if alike matches can follow related
ones. -/
theorem forall₂_flatMap_follow {R : Match ι → Match ι → Prop}
    (hstop : ∀ {m n : Match ι}, R m n → m.stop.Alike n.stop)
    (hfollow : ∀ {m n a b : Match ι}, R m n → a.Alike b → R (m.follow a) (n.follow b))
    {next : Cursor → List (Match ι)}
    (hnext : ∀ {s t : Cursor}, s.Alike t → List.Forall₂ Match.Alike (next s) (next t))
    {ms ns : List (Match ι)} (h : List.Forall₂ R ms ns) :
    List.Forall₂ R (ms.flatMap fun m => (next m.stop).map m.follow)
      (ns.flatMap fun n => (next n.stop).map n.follow) := by
  refine List.rel_flatMap h fun m n hmn => ?_
  exact List.rel_map (fun _ _ hab => hfollow hmn hab) (hnext (hstop hmn))

theorem forall₂_rounds {body : Cursor → List (Match ι)}
    (hbody : ∀ {s t : Cursor}, s.Alike t → List.Forall₂ Match.Alike (body s) (body t)) (g : Greed)
    (n : Nat) (h : s.Alike t) :
    List.Forall₂ Match.Alike (rounds body g n s) (rounds body g n t) := by
  induction n generalizing s t with
  | zero => exact forall₂_alike_singleton h
  | succ n ih =>
    have hfurther := forall₂_flatMap_follow Match.Alike.stop Match.Alike.follow ih (hbody h)
    exact forall₂_arrange g hfurther (forall₂_alike_singleton h)

/-- At places that are alike, the ways to match are alike, one by one. -/
theorem forall₂_ways (hp : p.isMobile) (h : s.Alike t) :
    List.Forall₂ Match.Alike (p.ways s) (p.ways t) := by
  induction p generalizing s t with
  | empty => exact forall₂_alike_singleton h
  | one set =>
    rw [ways, ways, h.rest_eq]
    exact forall₂_alike_refl _
  | text u =>
    cases u with
    | nil => exact forall₂_alike_singleton h
    | cons d u =>
      rw [ways, ways, h.pass?_cons]
      exact forall₂_alike_refl _
  | span set =>
    have hskip := Cursor.alike_skipFrom set h.word_eq s.rest
    refine forall₂_alike_singleton ?_
    rwa [Cursor.skip, Cursor.skip, ← h.rest_eq]
  | many g set =>
    have hstops := forall₂_stops g set h.word_eq s.rest
    rw [ways, ways, ← h.rest_eq]
    exact List.rel_map (fun _ _ hst => ⟨hst, rfl⟩) hstops
  | seq p q ihp ihq =>
    rw [isMobile, Bool.and_eq_true] at hp
    exact forall₂_flatMap_follow Match.Alike.stop Match.Alike.follow (ihq hp.2) (ihp hp.1 h)
  | alt p q ihp ihq =>
    rw [isMobile, Bool.and_eq_true] at hp
    exact List.rel_append (ihp hp.1 h) (ihq hp.2 h)
  | star g p ih =>
    rw [ways, ways, h.rest_eq]
    exact forall₂_rounds (ih hp) g _ h
  | atomic p ih => exact List.forall₂_take 1 (ih hp h)
  | field name p ih =>
    refine List.rel_map (fun m n hmn => ⟨hmn.stop, ?_⟩) (ih hp h)
    rw [hmn.fields_eq, h.upTo_eq hmn.stop]
  | start => cases hp
  | stop =>
    rw [ways, ways, h.rest_eq]
    split
    · exact forall₂_alike_singleton h
    · exact .nil
  | edge =>
    rw [ways, ways, h.atEdge_eq]
    split
    · exact forall₂_alike_singleton h
    · exact .nil

/-! ### Replacing -/

/-- The matches at two places that are alike: none at both, or two that are alike. -/
theorem matchAt?_alike (hp : p.isMobile) (h : s.Alike t) :
    (p.matchAt? s = none ∧ p.matchAt? t = none) ∨
      ∃ m n, p.matchAt? s = some m ∧ p.matchAt? t = some n ∧ m.Alike n := by
  have hways := forall₂_ways hp h
  rw [matchAt?_eq_head?, matchAt?_eq_head?]
  generalize p.ways s = ms, p.ways t = ns at hways ⊢
  cases hways with
  | nil => exact .inl ⟨rfl, rfl⟩
  | cons hmn _ => exact .inr ⟨_, _, rfl, rfl, hmn⟩

/-- Replacing sees no more of the character before a text than whether it belongs to a word. -/
theorem replaceFrom_congr {expand : Match ι → Text} (hp : p.isMobile)
    (hexpand : ∀ m n, m.fields = n.fields → expand m = expand n)
    (h : before.any Text.isWord = before'.any Text.isWord) (r : Text) :
    p.replaceFrom expand 0 before r = p.replaceFrom expand 0 before' r := by
  cases r with
  | nil => rfl
  | cons c r =>
    have hplaces : Cursor.Alike ⟨before, c :: r⟩ ⟨before', c :: r⟩ := ⟨rfl, h⟩
    rw [replaceFrom, replaceFrom]
    rcases matchAt?_alike hp hplaces with ⟨hs, ht⟩ | ⟨m, n, hs, ht, hmn⟩
    · rw [hs, ht]
    · simp only [hs, ht, hmn.stop.rest_eq, hexpand m n hmn.fields_eq]

end Pattern

end Oxidize
