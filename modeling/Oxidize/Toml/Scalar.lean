import Oxidize.Toml.Alphabet
import Oxidize.Toml.Value

/-!
# Scalars of TOML

Numbers, truth values, dates and times are read from a token: the characters up to the next one that
cannot belong to such a value. A token is read as a whole or not at all.
-/

namespace Oxidize.Toml

/-- The values of the digits of a number, which single underscores may separate. -/
def digitValues? (base : Nat) : Text → Option (List Nat)
  | [] => none
  | [c] => (digitValue? base c).map fun v => [v]
  | c :: '_' :: r => do
    let v ← digitValue? base c
    let vs ← digitValues? base r
    some (v :: vs)
  | c :: r => do
    let v ← digitValue? base c
    let vs ← digitValues? base r
    some (v :: vs)

/-- An unsigned number in a base. -/
def natural? (base : Nat) (t : Text) : Option Nat :=
  (digitValues? base t).map (ofDigits base)

/-- An unsigned decimal number without needless zeros in front. -/
def decimal? : Text → Option Nat
  | ['0'] => some 0
  | '0' :: _ => none
  | t => natural? 10 t

/-- Whether a sign stands in front, and what follows it. -/
def sign : Text → Bool × Text
  | '+' :: r => (false, r)
  | '-' :: r => (true, r)
  | t => (false, t)

/-- A number with its sign. -/
def signed (negative : Bool) (n : Nat) : Int :=
  if negative then -Int.ofNat n else Int.ofNat n

/-- An integer of any size. -/
def integerOfAnySize? : Text → Option Int
  | '0' :: 'x' :: r => (natural? 16 r).map Int.ofNat
  | '0' :: 'o' :: r => (natural? 8 r).map Int.ofNat
  | '0' :: 'b' :: r => (natural? 2 r).map Int.ofNat
  | t => (decimal? (sign t).2).map (signed (sign t).1)

/-- An integer of 64 bits. -/
def integer? (t : Text) : Option Int :=
  (integerOfAnySize? t).filter fun n => minInteger ≤ n && n ≤ maxInteger

/-- The digits behind the point of a float and its exponent. -/
def fraction? (t : Text) : Option (List Nat × Int) :=
  let digits := t.takeWhile fun c => c ≠ 'e' && c ≠ 'E'
  let fractionDigits? : Option (List Nat) :=
    match digits with
    | [] => some []
    | '.' :: ds => digitValues? 10 ds
    | _ => none
  let exponent? : Option Int :=
    match t.drop digits.length with
    | [] => some 0
    | _ :: e => (natural? 10 (sign e).2).map (signed (sign e).1)
  do some (← fractionDigits?, ← exponent?)

/-- Whether a decimal number is so large that the nearest float is infinite. -/
def overflows (ds : List Nat) (exponent : Int) : Bool :=
  let n := ofDigits 10 ds
  if n = 0 then false
  else if exponent > 400 then true
  else if exponent + ds.length < 300 then false
  else decide ((Nat.pow 2 1024 - Nat.pow 2 970) * Nat.pow 10 (-exponent).toNat ≤
    n * Nat.pow 10 exponent.toNat)

/-- Whether a token is a float. A positive number must not be too large. -/
def isFloat (t : Text) : Bool :=
  let (negative, r) := sign t
  if r = "inf" ∨ r = "nan" then true
  else
    let whole := r.takeWhile fun c => c ≠ '.' && c ≠ 'e' && c ≠ 'E'
    let rest := r.drop whole.length
    match decimal? whole, digitValues? 10 whole, fraction? rest with
    | some _, some ds, some (fs, exponent) =>
      !rest.isEmpty && (negative || !overflows (ds ++ fs) (exponent - fs.length))
    | _, _, _ => false

/-- The number that two digits stand for. -/
def pair? (a b : Char) : Option Nat := do
  let x ← digitValue? 10 a
  let y ← digitValue? 10 b
  some (10 * x + y)

/-- The number of days of a month. -/
def daysInMonth (year month : Nat) : Nat :=
  if month = 2 then
    if year % 4 = 0 ∧ (year % 100 ≠ 0 ∨ year % 400 = 0) then 29 else 28
  else if month = 4 ∨ month = 6 ∨ month = 9 ∨ month = 11 then 30 else 31

/-- What follows a date, if the text begins with one. -/
def afterDate? : Text → Option Text
  | a :: b :: c :: d :: '-' :: e :: f :: '-' :: g :: h :: r => do
    let century ← pair? a b
    let year ← pair? c d
    let month ← pair? e f
    let day ← pair? g h
    if 1 ≤ month ∧ month ≤ 12 ∧ 1 ≤ day ∧ day ≤ daysInMonth (100 * century + year) month then
      some r
    else none
  | _ => none

/-- What follows a time of day, if the text begins with one. -/
def afterTime? : Text → Option Text
  | a :: b :: ':' :: c :: d :: ':' :: e :: f :: r => do
    let hour ← pair? a b
    let minute ← pair? c d
    let second ← pair? e f
    if hour ≤ 23 ∧ minute ≤ 59 ∧ second ≤ 60 then
      match r with
      | '.' :: fs => if (fs.head?.any Char.isDigit) then some (fs.dropWhile Char.isDigit) else none
      | _ => some r
    else none
  | _ => none

/-- Whether a text is the offset of a time from universal time, or nothing. -/
def isOffset : Text → Bool
  | [] => true
  | ['Z'] => true
  | ['z'] => true
  | [s, a, b, ':', c, d] =>
    (s = '+' || s = '-') && (pair? a b).any (· ≤ 23) && (pair? c d).any (· ≤ 59)
  | _ => false

/-- Whether a token is a date, a time or both. -/
def isMoment (t : Text) : Bool :=
  match afterDate? t with
  | some [] => true
  | some (s :: r) =>
    (s = 'T' || s = 't' || s = ' ') && (afterTime? r).any isOffset
  | none => (afterTime? t).any List.isEmpty

/-- The token at the start of a text, and what follows it. A date and a time with a space between
them are one token. -/
def token (t : Text) : Text × Text :=
  let first := t.takeWhile isTokenChar
  let rest := t.drop first.length
  match afterDate? first, rest with
  | some [], ' ' :: c :: r =>
    if c.isDigit then
      let second := (c :: r).takeWhile isTokenChar
      (first ++ ' ' :: second, (c :: r).drop second.length)
    else (first, rest)
  | _, _ => (first, rest)

/-- The value of a token. -/
def scalar? (t : Text) : Option Value :=
  if t = "true" then some (.boolean true)
  else if t = "false" then some (.boolean false)
  else if isMoment t then some .moment
  else if isFloat t then some .float
  else (integer? t).map .integer

/-- Read a number, a truth value, a date or a time. -/
def readScalar (t : Text) : Option (Value × Text) :=
  (scalar? (token t).1).map fun v => (v, (token t).2)

end Oxidize.Toml
