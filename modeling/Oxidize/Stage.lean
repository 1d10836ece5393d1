import Oxidize.Event

/-!
# Stages

A stage is a computation that reports events and asks the code generator on its way, and that may
break off. What it does is kept in order (`Act`), also when it breaks off. A `Watch` looks at every
event and can make the stage that reports it break off with a payload; `attempt` is where that is
caught.
-/

namespace Oxidize

/-- What a stage does besides computing. -/
inductive Act
  /-- The code generator is asked. -/
  | asked (prompt : Text)
  /-- An event is reported. -/
  | reported (e : Event)
  deriving DecidableEq

namespace Act

/-- The event that is reported, if this is a report. -/
def event? : Act → Option Event
  | reported e => some e
  | asked _ => none

/-- The prompt of a question to the code generator, if this is one. -/
def prompt? : Act → Option Text
  | asked p => some p
  | reported _ => none

end Act

/-- The payload with which a stage breaks off after an event, if it does. -/
abbrev Watch := Event → Option Payload

/-- The watch that lets everything pass. -/
def Watch.calm : Watch := fun _ => none

/-- What a stage did and what came out of it. -/
structure Outcome (α : Type) where
  acts : List Act
  result : Except Payload α

/-- A computation under a watch. -/
def Stage (α : Type) : Type := Watch → Outcome α

namespace Stage

variable {α β : Type}

/-- The stage that does nothing. -/
def done (a : α) : Stage α := fun _ => ⟨[], .ok a⟩

/-- One stage and then another. If the first breaks off, so does the whole. -/
def andThen (x : Stage α) (f : α → Stage β) : Stage β := fun w =>
  match x w with
  | ⟨acts, .error p⟩ => ⟨acts, .error p⟩
  | ⟨acts, .ok a⟩ =>
    match f a w with
    | ⟨more, r⟩ => ⟨acts ++ more, r⟩

instance : Monad Stage where
  pure := done
  bind := andThen

/-- Report an event. -/
def report (e : Event) : Stage Unit := fun w =>
  ⟨[.reported e], match w e with
    | none => .ok ()
    | some p => .error p⟩

/-- Run a stage and keep a break-off as a value. -/
def attempt (x : Stage α) : Stage (Except Payload α) := fun w =>
  ⟨(x w).acts, .ok (x w).result⟩

@[simp] theorem pure_apply (a : α) (w : Watch) : (pure a : Stage α) w = ⟨[], .ok a⟩ := rfl

theorem bind_apply (x : Stage α) (f : α → Stage β) (w : Watch) :
    (x >>= f) w = match x w with
      | ⟨acts, .error p⟩ => ⟨acts, .error p⟩
      | ⟨acts, .ok a⟩ => ⟨acts ++ (f a w).acts, (f a w).result⟩ := by
  show andThen x f w = _
  unfold andThen
  rcases x w with ⟨acts, p | a⟩ <;> rfl

@[simp] theorem attempt_apply (x : Stage α) (w : Watch) :
    attempt x w = ⟨(x w).acts, .ok (x w).result⟩ := rfl

end Stage

end Oxidize
