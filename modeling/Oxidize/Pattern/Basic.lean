import Oxidize.Text.Basic

/-!
# Patterns

A pattern describes a piece of text and names the parts of it that matter. `run` finds a match at a
given place by trying the ways to match one after the other, best first: an alternative prefers its
left side, a greedy repetition goes on as long as it can, a lazy one stops as soon as it can. `run`
hands each place where the pattern can end to a continuation and keeps the first success, so that
`run_seq` is composition and `run_alt` is choice. Two constructors never go back on what they took:
`span`, the longest run of characters of a set, and `atomic`, the best way to match a pattern.

* `Cursor`, a place in a text;
* `Pattern`, `Pattern.run`, with one equation for each constructor;
* `Match`, the end of a match and the texts of its named parts.
-/

namespace Oxidize

/-- A place in a text: the character before it, if there is one, and the text behind it. -/
structure Cursor where
  before : Option Char
  rest : Text
  deriving DecidableEq

namespace Cursor

/-- The start of a text. -/
def ofText (t : Text) : Cursor := ⟨none, t⟩

/-- The text between a place and a later one. -/
def upTo (s t : Cursor) : Text :=
  s.rest.take (s.rest.length - t.rest.length)

/-- The place behind the given text, if that text stands here. -/
def pass? (s : Cursor) : Text → Option Cursor
  | [] => some s
  | d :: t =>
    match s.rest with
    | [] => none
    | c :: r => if c = d then pass? ⟨some c, r⟩ t else none

/-- The place behind the longest run of characters of a set, in a text behind the character
`before`. -/
def skipFrom (set : Char → Bool) (before : Option Char) : Text → Cursor
  | [] => ⟨before, []⟩
  | c :: r => if set c then skipFrom set (some c) r else ⟨before, c :: r⟩

/-- The place behind the longest run of characters of a set. -/
def skip (s : Cursor) (set : Char → Bool) : Cursor :=
  skipFrom set s.before s.rest

/-- Whether a word begins or ends here. -/
def atEdge (s : Cursor) : Bool :=
  s.before.any Text.isWord != s.rest.head?.any Text.isWord

end Cursor

/-- Whether a repetition goes on as long as it can or stops as soon as it can. -/
inductive Greed
  | greedy
  | lazy
  deriving DecidableEq

/-- A pattern, with parts named by `ι`. -/
inductive Pattern (ι : Type)
  /-- Nothing. -/
  | empty
  /-- One character of a set. -/
  | one (set : Char → Bool)
  /-- The given text. -/
  | text (t : Text)
  /-- The longest run of characters of a set, possibly none. -/
  | span (set : Char → Bool)
  /-- Any number of characters of a set. -/
  | many (greed : Greed) (set : Char → Bool)
  /-- One pattern and then another. -/
  | seq (p q : Pattern ι)
  /-- One pattern or, if that leads nowhere, another. -/
  | alt (p q : Pattern ι)
  /-- A pattern any number of times. -/
  | star (greed : Greed) (p : Pattern ι)
  /-- The best way to match a pattern, and no other. -/
  | atomic (p : Pattern ι)
  /-- A pattern whose text is kept under a name. -/
  | field (name : ι) (p : Pattern ι)
  /-- The start of the text. -/
  | start
  /-- The end of the text. -/
  | stop
  /-- The start or the end of a word. -/
  | edge

/-- A match: the place where it ends and the texts of its named parts, in order. -/
structure Match (ι : Type) where
  stop : Cursor
  fields : List (ι × Text)

namespace Match

variable {ι : Type}

/-- The match with one more named part, in front. -/
def record (name : ι) (t : Text) (m : Match ι) : Match ι :=
  { m with fields := (name, t) :: m.fields }

/-- The match with the named parts of an earlier one in front. -/
def follow (first m : Match ι) : Match ι :=
  { m with fields := first.fields ++ m.fields }

/-- The text of a named part, empty if the match has no such part. -/
def get [BEq ι] (m : Match ι) (name : ι) : Text :=
  (m.fields.lookup name).getD []

end Match

namespace Pattern

variable {ι α : Type}

/-- Patterns one after the other. -/
def sequence : List (Pattern ι) → Pattern ι
  | [] => empty
  | p :: ps => seq p (sequence ps)

/-- The longest run of characters of a set, at least one. -/
def chars (set : Char → Bool) : Pattern ι :=
  seq (one set) (span set)

/-- One or more characters of a set. -/
def oneOrMore (greed : Greed) (set : Char → Bool) : Pattern ι :=
  seq (one set) (many greed set)

/-- A pattern one or more times. -/
def plus (greed : Greed) (p : Pattern ι) : Pattern ι :=
  seq p (star greed p)

/-- A pattern or, if that leads nowhere, nothing. -/
def optional (p : Pattern ι) : Pattern ι :=
  alt p empty

/-- The first of two results that is one. -/
def orElse (g : Greed) (further here : Unit → Option α) : Option α :=
  match g with
  | .greedy => further () <|> here ()
  | .lazy => here () <|> further ()

/-- Any number of characters of a set, and then the continuation `k`. -/
def runMany (g : Greed) (set : Char → Bool) (k : Cursor → Option α) (before : Option Char) :
    Text → Option α
  | [] => k ⟨before, []⟩
  | c :: r =>
    if set c then
      orElse g (fun _ => runMany g set k (some c) r) (fun _ => k ⟨before, c :: r⟩)
    else k ⟨before, c :: r⟩

/-- A body at most `n` times, and then the continuation `k`. -/
def runStar (body : Cursor → (Cursor → Option α) → Option α) (g : Greed) (k : Cursor → Option α) :
    (n : Nat) → Cursor → Option α
  | 0, s => k s
  | n + 1, s => orElse g (fun _ => body s (runStar body g k n)) (fun _ => k s)

/-- The first way to match a pattern from a place on whose end satisfies the continuation `k`. A
repetition goes around at most as often as there are characters left. -/
def run : Pattern ι → Cursor → (Cursor → Option (Match ι)) → Option (Match ι)
  | empty, s, k => k s
  | one set, s, k =>
    match s.rest with
    | [] => none
    | c :: r => if set c then k ⟨some c, r⟩ else none
  | text t, s, k => (s.pass? t).bind k
  | span set, s, k => k (s.skip set)
  | many g set, s, k => runMany g set k s.before s.rest
  | seq p q, s, k => run p s fun t => run q t k
  | alt p q, s, k => run p s k <|> run q s k
  | star g p, s, k => runStar (run p) g k s.rest.length s
  | atomic p, s, k =>
    match run p s fun t => some ⟨t, []⟩ with
    | none => none
    | some m => (k m.stop).map m.follow
  | field name p, s, k => run p s fun t => (k t).map fun m => m.record name (s.upTo t)
  | start, s, k => if s.before.isNone then k s else none
  | stop, s, k => if s.rest.isEmpty then k s else none
  | edge, s, k => if s.atEdge then k s else none

/-- The match at a place. -/
def matchAt? (p : Pattern ι) (s : Cursor) : Option (Match ι) :=
  p.run s fun t => some ⟨t, []⟩

section Equations

variable (s : Cursor) (k : Cursor → Option (Match ι))

@[simp] theorem run_empty : run empty s k = k s := rfl

@[simp] theorem run_one_nil (set : Char → Bool) (before : Option Char) :
    run (one set) ⟨before, []⟩ k = none := rfl

@[simp] theorem run_one_cons (set : Char → Bool) (before : Option Char) (c : Char) (r : Text) :
    run (one set) ⟨before, c :: r⟩ k = if set c then k ⟨some c, r⟩ else none := rfl

@[simp] theorem run_text (t : Text) : run (text t) s k = (s.pass? t).bind k := rfl

@[simp] theorem run_span (set : Char → Bool) : run (span set) s k = k (s.skip set) := rfl

@[simp] theorem run_many (g : Greed) (set : Char → Bool) :
    run (many g set) s k = runMany g set k s.before s.rest := rfl

@[simp] theorem run_seq (p q : Pattern ι) :
    run (seq p q) s k = run p s fun t => run q t k := rfl

@[simp] theorem run_alt (p q : Pattern ι) : run (alt p q) s k = (run p s k <|> run q s k) := rfl

@[simp] theorem run_star (g : Greed) (p : Pattern ι) :
    run (star g p) s k = runStar (run p) g k s.rest.length s := rfl

@[simp] theorem run_atomic (p : Pattern ι) :
    run (atomic p) s k = (p.matchAt? s).bind fun m => (k m.stop).map m.follow := by
  rw [run, matchAt?]
  cases run p s fun t => some ⟨t, []⟩ <;> rfl

@[simp] theorem run_field (name : ι) (p : Pattern ι) :
    run (field name p) s k =
      run p s fun t => (k t).map fun m => m.record name (s.upTo t) := rfl

@[simp] theorem run_start : run start s k = if s.before.isNone then k s else none := rfl

@[simp] theorem run_stop : run stop s k = if s.rest.isEmpty then k s else none := rfl

@[simp] theorem run_edge : run edge s k = if s.atEdge then k s else none := rfl

@[simp] theorem run_sequence_nil : run (sequence []) s k = k s := rfl

@[simp] theorem run_sequence_cons (p : Pattern ι) (ps : List (Pattern ι)) :
    run (sequence (p :: ps)) s k = run p s fun t => run (sequence ps) t k := rfl

end Equations

end Pattern

end Oxidize
