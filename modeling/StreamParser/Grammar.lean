import StreamParser.Pattern

/-!
# Grammars

A grammar says how to read an output from an input.  `Grammar ρ υ ν α` is a grammar with outputs of
type `α`.  It may refer to rules by their names in `ρ`; the outputs of rules are of type `υ`.  It
may make remarks of type `ν` in the journal of a run.

The constructors are the steps that a run takes; the combinators of the library are written with
them.  A grammar that reads several things in a row does so in a *transaction*, so that a failure
leaves the input where it was.

The outputs of a repetition are kept in a list, for which there is always memory, whatever the number
of outputs is.
-/

namespace StreamParser

/-- When a remark is made about a part of a grammar. -/
inductive Moment
  /-- Before the part is read. -/
  | entry
  /-- After it was read. -/
  | success
  /-- After it has failed. -/
  | failure
  deriving DecidableEq, Repr

/-- A way to read an output from an input. -/
inductive Grammar (ρ υ ν : Type) : Type → Type 1
  /-- Read what matches a pattern.  A pattern that could not be compiled fails. -/
  | pattern (p : Except PatternError Pattern) : Grammar ρ υ ν String
  /-- Read nothing. -/
  | succeed {α : Type} (output : α) : Grammar ρ υ ν α
  /-- Fail. -/
  | fail {α : Type} (error : ParseError) : Grammar ρ υ ν α
  /-- Read one thing, and then another one that depends on its output. -/
  | bind {α β : Type} (first : Grammar ρ υ ν α) (next : α → Grammar ρ υ ν β) : Grammar ρ υ ν β
  /-- A failure leaves the input where it was, unless a trial around does so anyway. -/
  | transaction {α : Type} (g : Grammar ρ υ ν α) : Grammar ρ υ ν α
  /-- A failure leaves the input where it was. -/
  | attempt {α : Type} (g : Grammar ρ υ ν α) : Grammar ρ υ ν α
  /-- Read the first, or the second if the first fails and the failure can be recovered from. -/
  | orElse {α : Type} (first second : Grammar ρ υ ν α) : Grammar ρ υ ν α
  /-- A failure is explained in other words, with the failure as its cause. -/
  | label {α : Type} (message : String) (g : Grammar ρ υ ν α) : Grammar ρ υ ν α
  /-- Give up all places to go back to.  No alternative is tried after a failure. -/
  | commit {α : Type} (g : Grammar ρ υ ν α) : Grammar ρ υ ν α
  /-- Give up all places to go back to, and report failures as they are. -/
  | letGo {α : Type} (g : Grammar ρ υ ν α) : Grammar ρ υ ν α
  /-- Read what a rule says. -/
  | rule (name : ρ) : Grammar ρ υ ν υ
  /-- Read a number of things in a row. -/
  | times {α : Type} (n : Nat) (g : Grammar ρ υ ν α) : Grammar ρ υ ν (List α)
  /-- Read as many things in a row as there are, at most `most` if there is a bound.  One that is
  read from nothing is the last. -/
  | many {α : Type} (most : Option Nat) (g : Grammar ρ υ ν α) : Grammar ρ υ ν (List α)
  /-- Make remarks, which may tell the place in the input. -/
  | remark {α : Type} (tell : Moment → Nat → List ν) (g : Grammar ρ υ ν α) : Grammar ρ υ ν α

namespace Grammar

variable {ρ υ ν α β γ : Type}

/-- Change the output. -/
def map (f : α → β) (g : Grammar ρ υ ν α) : Grammar ρ υ ν β := g.bind fun a => succeed (f a)

/-- Read one thing, and then another one that depends on its output, or nothing at all. -/
def andThen (g : Grammar ρ υ ν α) (next : α → Grammar ρ υ ν β) : Grammar ρ υ ν β :=
  transaction (g.bind next)

/-- Refuse an output that fails a test. -/
def filter (test : α → Bool) (g : Grammar ρ υ ν α) : Grammar ρ υ ν α :=
  g.andThen fun a => if test a then succeed a else fail .noMatchingElement

/-- Read two things in a row. -/
def seq (g : Grammar ρ υ ν α) (h : Grammar ρ υ ν β) : Grammar ρ υ ν (α × β) :=
  g.andThen fun a => h.map fun b => (a, b)

/-- Read two things in a row, and keep the first. -/
def skip (g : Grammar ρ υ ν α) (h : Grammar ρ υ ν β) : Grammar ρ υ ν α :=
  g.andThen fun a => h.map fun _ => a

/-- Read two things in a row, and keep the second. -/
def skipLeft (g : Grammar ρ υ ν α) (h : Grammar ρ υ ν β) : Grammar ρ υ ν β := g.andThen fun _ => h

/-- Fail with a message. -/
def failure (message : String) : Grammar ρ υ ν α := fail (.failure message)

/-! ## Repetition -/

/-- Read a thing, or nothing. -/
def zeroOrOne (g : Grammar ρ υ ν α) : Grammar ρ υ ν (Option α) :=
  (g.map some).orElse (succeed none)

/-- Read as many things as there are. -/
def zeroOrMore (g : Grammar ρ υ ν α) : Grammar ρ υ ν (List α) := many none g

/-- Read exactly `n` things.  No memory is set aside for them beforehand, so no number is too great
to ask for. -/
def exactly (n : Nat) (g : Grammar ρ υ ν α) : Grammar ρ υ ν (List α) := transaction (times n g)

/-- Read at least `n` things. -/
def atLeast (n : Nat) (g : Grammar ρ υ ν α) : Grammar ρ υ ν (List α) :=
  (exactly n g).bind fun first => (many none g).map (first ++ ·)

/-- Read one thing or more. -/
def oneOrMore (g : Grammar ρ υ ν α) : Grammar ρ υ ν (List α) := atLeast 1 g

/-- Read at least `least` and at most `most` things.  The bounds have to be in order. -/
def between (least most : Nat) (g : Grammar ρ υ ν α) :
    Except ParseError (Grammar ρ υ ν (List α)) :=
  if most < least then
    .error (.invalidArgument ("between: lower bound " ++ toString least ++
      " exceeds upper bound " ++ toString most))
  else
    .ok ((exactly least g).bind fun first => (many (some (most - least)) g).map (first ++ ·))

/-- Read the things that follow the first of a list, each after a separator. -/
def separatedTail (g : Grammar ρ υ ν α) (separator : Grammar ρ υ ν β) (first : α) :
    Grammar ρ υ ν (List α) :=
  (many none (separator.skipLeft g)).map (first :: ·)

/-- Read one thing or more, with separators between them. -/
def separatedByOneOrMore (g : Grammar ρ υ ν α) (separator : Grammar ρ υ ν β) :
    Grammar ρ υ ν (List α) :=
  (attempt g).bind (separatedTail g separator)

/-- Read any number of things, with separators between them. -/
def separatedByZeroOrMore (g : Grammar ρ υ ν α) (separator : Grammar ρ υ ν β) :
    Grammar ρ υ ν (List α) :=
  g.zeroOrOne.bind fun
    | some first => separatedTail g separator first
    | none => succeed []

/-- Read a thing between two others. -/
def surroundedWith (g : Grammar ρ υ ν α) (opening : Grammar ρ υ ν β)
    (closing : Grammar ρ υ ν γ) : Grammar ρ υ ν α :=
  (opening.skipLeft g).skip closing

/-! ## Text -/

/-- Read what matches a regular expression. -/
def regex (r : String) : Grammar ρ υ ν String := pattern (Pattern.compile r)

/-- Read a text. -/
def literal (t : String) : Grammar ρ υ ν String := pattern (Pattern.literal t)

/-- Read white space. -/
def whitespace : Grammar ρ υ ν String := regex "\\s*"

/-- Skip white space before a thing. -/
def trim (g : Grammar ρ υ ν α) : Grammar ρ υ ν α := whitespace.skipLeft g

/-- Read what matches a regular expression after white space. -/
def token (r : String) : Grammar ρ υ ν String := trim (regex r)

/-- Read the end of the input. -/
def endOfInput : Grammar ρ υ ν Unit := (regex "\\z").map fun _ => ()

/-! ## Remarks -/

/-- Make a remark before a thing is read. -/
def remarking (entry : ν) (g : Grammar ρ υ ν α) : Grammar ρ υ ν α :=
  remark (fun | .entry, _ => [entry] | _, _ => []) g

end Grammar

end StreamParser
