import Oxidize.Pattern.Search

/-!
# The ways to match a pattern

`ways` lists every way to match a pattern at a place, best first, as data: where the match ends and
what its named parts are. `run_eq_findSome?` says that running a pattern tries exactly these ways in
this order, so that `matchAt?` is the first of them. What a match can be is then a question of
membership.

* `ways`, with the places `stops` behind runs of characters and the ways `rounds` of repetitions;
* `run_eq_findSome?`, `matchAt?_eq_head?`.
-/

namespace Oxidize

namespace Match

variable {ι : Type}

@[simp] theorem stop_follow (first m : Match ι) : (first.follow m).stop = m.stop := rfl

@[simp] theorem map_follow_mk_nil (s : Cursor) (o : Option (Match ι)) :
    o.map (follow ⟨s, []⟩) = o := by
  cases o <;> rfl

@[simp] theorem get_cons_self [BEq ι] [LawfulBEq ι] (s : Cursor) (name : ι) (t : Text)
    (fs : List (ι × Text)) : get ⟨s, (name, t) :: fs⟩ name = t := by
  simp [get]

@[simp] theorem get_cons_of_ne [BEq ι] [LawfulBEq ι] (s : Cursor) {name other : ι} (t : Text)
    (fs : List (ι × Text)) (h : name ≠ other) :
    get ⟨s, (other, t) :: fs⟩ name = get ⟨s, fs⟩ name := by
  rw [get, List.lookup_cons, beq_false_of_ne h, get]

theorem follow_follow (a b m : Match ι) : (a.follow b).follow m = a.follow (b.follow m) := by
  simp [follow]

end Match

namespace Pattern

variable {ι α : Type}

/-- What comes of going on and of stopping, in the order of a repetition's greed. -/
def arrange (g : Greed) (further here : List α) : List α :=
  match g with
  | .greedy => further ++ here
  | .lazy => here ++ further

/-- The places where a run of characters of a set can stop. -/
def stops (g : Greed) (set : Char → Bool) (before : Option Char) : Text → List Cursor
  | [] => [⟨before, []⟩]
  | c :: r =>
    if set c then arrange g (stops g set (some c) r) [⟨before, c :: r⟩] else [⟨before, c :: r⟩]

/-- The ways to go around a body at most `n` times. -/
def rounds (body : Cursor → List (Match ι)) (g : Greed) : (n : Nat) → Cursor → List (Match ι)
  | 0, s => [⟨s, []⟩]
  | n + 1, s =>
    arrange g ((body s).flatMap fun m => (rounds body g n m.stop).map m.follow) [⟨s, []⟩]

/-- The ways to match a pattern at a place, best first. -/
def ways : Pattern ι → Cursor → List (Match ι)
  | empty, s => [⟨s, []⟩]
  | one set, s =>
    match s.rest with
    | [] => []
    | c :: r => if set c then [⟨⟨some c, r⟩, []⟩] else []
  | text t, s => ((s.pass? t).map fun u => ⟨u, []⟩).toList
  | span set, s => [⟨s.skip set, []⟩]
  | many g set, s => (stops g set s.before s.rest).map fun u => ⟨u, []⟩
  | seq p q, s => (ways p s).flatMap fun m => (ways q m.stop).map m.follow
  | alt p q, s => ways p s ++ ways q s
  | star g p, s => rounds (ways p) g s.rest.length s
  | atomic p, s => (ways p s).take 1
  | field name p, s => (ways p s).map fun m => ⟨m.stop, m.fields ++ [(name, s.upTo m.stop)]⟩
  | start, s => if s.before.isNone then [⟨s, []⟩] else []
  | stop, s => if s.rest.isEmpty then [⟨s, []⟩] else []
  | edge, s => if s.atEdge then [⟨s, []⟩] else []

/-! ### Running is trying the ways in order -/

theorem orElse_eq_findSome? {β : Type} (g : Greed) (further here : List β) (f : β → Option α) :
    orElse g (fun _ => further.findSome? f) (fun _ => here.findSome? f) =
      (arrange g further here).findSome? f := by
  cases g <;> simp [orElse, arrange, List.findSome?_append]

theorem runMany_eq_findSome? (g : Greed) (set : Char → Bool) (k : Cursor → Option α)
    (before : Option Char) (t : Text) :
    runMany g set k before t = (stops g set before t).findSome? k := by
  induction t generalizing before with
  | nil => simp [runMany, stops]
  | cons c r ih =>
    by_cases h : set c
    · have here : k ⟨before, c :: r⟩ = [⟨before, c :: r⟩].findSome? k := by simp
      rw [runMany, stops, if_pos h, if_pos h, ih, here, orElse_eq_findSome?]
    · simp [runMany, stops, h]

theorem findSome?_map_follow (first : Match ι) (ms : List (Match ι))
    (k : Cursor → Option (Match ι)) :
    (ms.map first.follow).findSome? (fun m => (k m.stop).map m.follow) =
      (ms.findSome? fun m => (k m.stop).map m.follow).map first.follow := by
  induction ms with
  | nil => rfl
  | cons m ms ih =>
    rw [List.map_cons, List.findSome?_cons, List.findSome?_cons, ih, Match.stop_follow]
    cases k m.stop with
    | none => rfl
    | some n => simp [Match.follow_follow]

/-- Two matches in a row: what follows the first one decides before the next first one is tried. -/
theorem findSome?_flatMap_follow (ms : List (Match ι)) (next : Match ι → List (Match ι))
    (k : Cursor → Option (Match ι)) :
    (ms.flatMap fun m => (next m).map m.follow).findSome? (fun m => (k m.stop).map m.follow) =
      ms.findSome? fun m =>
        ((next m).findSome? fun n => (k n.stop).map n.follow).map m.follow := by
  induction ms with
  | nil => rfl
  | cons m ms ih =>
    rw [List.flatMap_cons, List.findSome?_append, List.findSome?_cons, ih, findSome?_map_follow]
    cases (next m).findSome? fun n => (k n.stop).map n.follow <;> rfl

theorem runStar_eq_findSome? {body : Cursor → (Cursor → Option (Match ι)) → Option (Match ι)}
    {step : Cursor → List (Match ι)}
    (h : ∀ s k, body s k = (step s).findSome? fun m => (k m.stop).map m.follow)
    (g : Greed) (k : Cursor → Option (Match ι)) (n : Nat) (s : Cursor) :
    runStar body g k n s = (rounds step g n s).findSome? fun m => (k m.stop).map m.follow := by
  induction n generalizing s with
  | zero => simp [runStar, rounds]
  | succ n ih =>
    -- Going around once more and stopping are the two halves of `arrange`.
    have here : k s = [(⟨s, []⟩ : Match ι)].findSome? fun m => (k m.stop).map m.follow := by simp
    rw [runStar, rounds, h, here]
    simp only [ih]
    rw [← findSome?_flatMap_follow, orElse_eq_findSome?]

/-- Running a pattern tries its ways one after the other. -/
theorem run_eq_findSome? (p : Pattern ι) (s : Cursor) (k : Cursor → Option (Match ι)) :
    p.run s k = (p.ways s).findSome? fun m => (k m.stop).map m.follow := by
  induction p generalizing s k with
  | empty => simp [ways]
  | one set =>
    rcases s with ⟨before, _ | ⟨c, r⟩⟩
    · simp [ways]
    · by_cases h : set c <;> simp [ways, h]
  | text t => cases h : s.pass? t <;> simp [ways, h]
  | span set => simp [ways]
  | many g set => simp [ways, runMany_eq_findSome?, List.findSome?_map, Function.comp_def]
  | seq p q ihp ihq => simp only [run_seq, ways, ihp, ihq, findSome?_flatMap_follow]
  | alt p q ihp ihq => simp [ways, ihp, ihq, List.findSome?_append]
  | star g p ih => rw [run_star, ways, runStar_eq_findSome? ih]
  | atomic p ih =>
    rw [run_atomic, matchAt?, ih, ways]
    rcases p.ways s with _ | ⟨m, ms⟩ <;> simp [Match.follow]
  | field name p ih =>
    rw [run_field, ih, ways, List.findSome?_map]
    congr 1
    funext m
    cases h : k m.stop <;> simp [Match.follow, Match.record, h]
  | start => by_cases h : s.before.isNone <;> simp [ways, h]
  | stop => by_cases h : s.rest.isEmpty <;> simp [ways, h]
  | edge => by_cases h : s.atEdge <;> simp [ways, h]

/-- The match at a place is the best of the ways. -/
theorem matchAt?_eq_head? (p : Pattern ι) (s : Cursor) : p.matchAt? s = (p.ways s).head? := by
  rw [matchAt?, run_eq_findSome?]
  rcases p.ways s with _ | ⟨m, ms⟩ <;> simp [Match.follow]

end Pattern

end Oxidize
