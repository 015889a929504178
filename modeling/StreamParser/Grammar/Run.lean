import StreamParser.Grammar
import StreamParser.Input

/-!
# Running a grammar

`Grammar.run` reads an output from an input.  A run may go on for ever: rules may call themselves,
and an input may have no end.  So a run has a bound on the depth of rules and on the length of
repetitions; the answer is `none` if the bound is reached.  A run that answers gives the same answer
with every larger bound.
-/

namespace StreamParser

/-- The state of a run. -/
structure Session (ω ν : Type) where
  input : ω
  /-- The remarks so far, the last one first. -/
  journal : List ν

/-- A part of a run: none if it goes beyond the bound. -/
abbrev Action (ω ν α : Type) : Type :=
  Session ω ν → Option (Except ParseError α × Session ω ν)

namespace Action

variable {ω ν α β : Type}

/-- Succeed. -/
def pure (a : α) : Action ω ν α := fun s => some (.ok a, s)

/-- Fail. -/
def fail (e : ParseError) : Action ω ν α := fun s => some (.error e, s)

/-- Go on after a success. -/
def bind (x : Action ω ν α) (f : α → Action ω ν β) : Action ω ν β := fun s =>
  match x s with
  | none => none
  | some (.ok a, s) => f a s
  | some (.error e, s) => some (.error e, s)

/-- Change the error of a failure. -/
def mapError (f : ParseError → ParseError) (x : Action ω ν α) : Action ω ν α := fun s =>
  match x s with
  | none => none
  | some (.ok a, s) => some (.ok a, s)
  | some (.error e, s) => some (.error (f e), s)

/-- Make remarks about a part of a run. -/
def remark [Input ω] (tell : Moment → Nat → List ν) (x : Action ω ν α) : Action ω ν α := fun s =>
  let note (s : Session ω ν) (l : List ν) : Session ω ν :=
    { s with journal := l.reverse ++ s.journal }
  match x (note s (tell .entry (Input.position s.input))) with
  | none => none
  | some (.ok a, t) => some (.ok a, note t (tell .success (Input.position t.input)))
  | some (.error e, t) =>
    some (.error e, note t (tell .failure (Input.failurePosition s.input t.input)))

variable [Input ω]

/-- Match a pattern. -/
def matchPattern (p : Pattern) : Action ω ν String := fun s =>
  let (result, input) := Input.matchPattern p s.input
  some (result, { s with input := input })

/-- Come back if there is a failure. -/
def attempt (x : Action ω ν α) : Action ω ν α := fun s =>
  let (trial, input) := Input.begin s.input
  match x { s with input := input } with
  | none => none
  | some (.ok a, s) => some (.ok a, { s with input := Input.succeeded trial s.input })
  | some (.error e, s) =>
    let (e, input) := Input.failed trial e s.input
    some (.error e, { s with input := input })

/-- Come back if there is a failure, unless a trial around does so. -/
def transaction (x : Action ω ν α) : Action ω ν α := fun s =>
  if Input.isTrying s.input then x s else attempt x s

/-- Try the second if the first fails and the failure can be recovered from. -/
def orElse (x y : Action ω ν α) : Action ω ν α := fun s =>
  match attempt x s with
  | some (.error e, s) => if e.isRecoverable then y s else some (.error e, s)
  | other => other

/-- Give up all places to go back to. -/
def letGo (x : Action ω ν α) : Action ω ν α := fun s =>
  x { s with input := Input.commit s.input }

/-- Give up all places to go back to, and try no alternative after a failure. -/
def commit (x : Action ω ν α) : Action ω ν α := fun s =>
  mapError (ParseError.afterCommit (Input.position s.input)) (letGo x) s

/-- `n` times in a row. -/
def times (x : Action ω ν α) : Nat → Action ω ν (List α)
  | 0 => pure []
  | n + 1 => bind x fun a => bind (times x n) fun l => pure (a :: l)

/-- As often as it succeeds, at most `most` times if there is a bound, until it reads nothing.  The
last argument bounds the number of times. -/
def many (x : Action ω ν α) : (most : Option Nat) → Nat → Action ω ν (List α)
  | _, 0 => fun _ => none
  | most, n + 1 => fun s =>
    if most = some 0 then some (.ok [], s)
    else
      match attempt x s with
      | none => none
      | some (.error e, t) => if e.isRecoverable then some (.ok [], t) else some (.error e, t)
      | some (.ok a, t) =>
        if Input.position t.input = Input.position s.input then some (.ok [a], t)
        else bind (many x (most.map (· - 1)) n) (fun l => pure (a :: l)) t

end Action

namespace Grammar

variable {ρ υ ν ω : Type} [Input ω]

/-- The action of a grammar, given the actions of the rules and a bound on repetitions. -/
def action (rules : ρ → Action ω ν υ) (bound : Nat) :
    {α : Type} → Grammar ρ υ ν α → Action ω ν α
  | _, pattern (.ok p) => Action.matchPattern p
  | _, pattern (.error e) => Action.fail (.pattern e)
  | _, succeed a => Action.pure a
  | _, fail e => Action.fail e
  | _, bind g next => Action.bind (action rules bound g) fun a => action rules bound (next a)
  | _, transaction g => Action.transaction (action rules bound g)
  | _, attempt g => Action.attempt (action rules bound g)
  | _, orElse g h => Action.orElse (action rules bound g) (action rules bound h)
  | _, label m g => Action.mapError (.caused m) (action rules bound g)
  | _, commit g => Action.commit (action rules bound g)
  | _, letGo g => Action.letGo (action rules bound g)
  | _, rule r => rules r
  | _, times n g => Action.times (action rules bound g) n
  | _, many most g => Action.many (action rules bound g) most bound
  | _, remark tell g => Action.remark tell (action rules bound g)

/-- The action of a rule: rules may call rules to the depth of the bound `n`. -/
def ruleAction (rules : ρ → Grammar ρ υ ν υ) (bound : Nat) : Nat → ρ → Action ω ν υ
  | 0, _ => fun _ => none
  | n + 1, r => action (ruleAction rules bound n) bound (rules r)

/-- Run a grammar with a bound on the depth of rules and on the length of repetitions. -/
def run {α : Type} (rules : ρ → Grammar ρ υ ν υ) (bound : Nat) (g : Grammar ρ υ ν α) :
    Action ω ν α :=
  action (ruleAction rules bound bound) bound g

end Grammar

end StreamParser
