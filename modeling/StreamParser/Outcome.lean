import StreamParser.Report

/-!
# Outcomes

An outcome is a value, or the error that explains why there is none.  Outcomes are chained with the
operations of `Except`, which hand an error on as it is; the operations here go on after an error.

A chain of steps on an integer is described by `Step`, and its end by `Finish`.
-/

namespace StreamParser

/-- A value, or the error that explains why there is none. -/
abbrev Outcome (α : Type) : Type := Except ParseError α

namespace Outcome

variable {α : Type}

/-- Ask for another outcome after an error. -/
def orRecover (o : Outcome α) (recovery : ParseError → Outcome α) : Outcome α :=
  match o with
  | .ok a => .ok a
  | .error e => recovery e

/-- Ask for a value after an error. -/
def recover (o : Outcome α) (recovery : ParseError → α) : Outcome α :=
  o.orRecover fun e => .ok (recovery e)

/-- Ask for another outcome after an error, whatever the error is. -/
def orElseTry (o : Outcome α) (alternative : Unit → Outcome α) : Outcome α :=
  o.orRecover fun _ => alternative ()

/-- Refuse a value that fails a test. -/
def filter (o : Outcome α) (test : α → Bool) : Outcome α :=
  o.bind fun a => if test a then .ok a else .error .noMatchingElement

/-- The value, or another one instead of the error. -/
def orElseGet (o : Outcome α) (fallback : Unit → α) : α :=
  match o with
  | .ok a => a
  | .error _ => fallback ()

/-- The value, if there is one. -/
def value? (o : Outcome α) : Option α := o.toOption

/-- The value, or a report on the error. -/
def report (o : Outcome α) : Except Report α := o.mapError Report.ofError

/-- A step in a chain of outcomes. -/
inductive Step
  /-- Add a number to the value. -/
  | add (n : Int64)
  /-- Go on after a value with a given outcome. -/
  | andThen (next : Outcome Int64)
  /-- Keep only a value that is greater than a number. -/
  | above (n : Int64)
  /-- Go on after an error with a given outcome. -/
  | orRecover (next : Outcome Int64)
  /-- Explain an error in other words, unless there are none. -/
  | explain (message : String)
  /-- Replace an error by a number. -/
  | recover (n : Int64)
  /-- Replace an error by the number of bytes of its wording. -/
  | recoverSize
  /-- Replace an error by a given outcome. -/
  | orElse (next : Outcome Int64)

namespace Step

/-- Take the step. -/
def apply (o : Outcome Int64) : Step → Outcome Int64
  | add n => o.map (· + n)
  | andThen next => o.bind fun _ => next
  | above n => o.filter (n < ·)
  | orRecover next => o.orRecover fun _ => next
  | explain m => o.orRecover fun e => .error (if m.isEmpty then e else .caused m e)
  | recover n => o.recover fun _ => n
  | recoverSize => o.recover fun e => .ofNat e.message.utf8ByteSize
  | orElse next => o.orElseTry fun () => next

/-- The step concerns values; otherwise it concerns errors. -/
def concernsValues : Step → Bool
  | add _ => true
  | andThen _ => true
  | above _ => true
  | _ => false

/-- The step does something with an outcome, and does not only hand it on. -/
def acts (s : Step) (o : Outcome Int64) : Bool := o.isOk == s.concernsValues

/-- A step that does not act hands the outcome on. -/
theorem apply_of_not_acts {s : Step} {o : Outcome Int64} (h : s.acts o = false) :
    s.apply o = o := by
  cases o <;> cases s <;>
    simp_all [acts, concernsValues, apply, Except.isOk, Except.toBool, Except.map, Except.bind,
      filter, Outcome.orRecover, Outcome.recover, orElseTry]

end Step

/-- The end of a chain of outcomes. -/
inductive Finish
  /-- The value, or a number that is asked for after an error. -/
  | orElseGet (n : Int64)
  /-- The value, or a number. -/
  | orElseValue (n : Int64)
  /-- The value, if there is one. -/
  | value?
  /-- The value, or a report. -/
  | report
  /-- The value; without one there is nothing to go on with but the report. -/
  | demand

/-- What comes of a chain of outcomes. -/
inductive Ending
  | value (n : Int64)
  | value? (n : Option Int64)
  | report (r : Except Report Int64)
  | demanded (r : Except Report Int64)

namespace Finish

/-- End a chain. -/
def apply (o : Outcome Int64) : Finish → Ending
  | orElseGet n => .value (o.orElseGet fun () => n)
  | orElseValue n => .value (o.orElseGet fun () => n)
  | value? => .value? o.value?
  | report => .report o.report
  | demand => .demanded o.report

/-- Something is asked for after an error. -/
def acts (f : Finish) (o : Outcome Int64) : Bool :=
  match f with
  | orElseGet _ => !o.isOk
  | _ => false

end Finish

end Outcome

end StreamParser
