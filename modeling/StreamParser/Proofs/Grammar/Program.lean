import StreamParser.Grammar.Run

/-!
# Programs over an input

An attempt is given something to try.  A `Program` is what may be given to it: it matches patterns,
asks for the place, commits, opens attempts and transactions around other programs, and goes on as
it likes with the result of each.

* `Program.run` runs a program over an input.
* `Program.ofGrammar` is the program that a grammar stands for, and `Program.run_ofGrammar` says that
  it runs as the grammar does.  So what is true of all programs is true of the combinators of the
  library.
-/

namespace StreamParser

/-- Remarks about a part change nothing but the journal. -/
theorem Action.remark_cases {ω ν α : Type} [Input ω] {tell : Moment → Nat → List ν}
    {x : Action ω ν α} {s s' : Session ω ν} {r : Except ParseError α}
    (h : Action.remark tell x s = some (r, s')) :
    ∃ s₁, x { s with journal := (tell .entry (Input.position s.input)).reverse ++ s.journal } =
      some (r, s₁) ∧ s'.input = s₁.input := by
  unfold Action.remark at h
  simp only at h
  split at h
  · cases h
  · rename_i a s₁ h₁
    cases h
    exact ⟨s₁, h₁, rfl⟩
  · rename_i e s₁ h₁
    cases h
    exact ⟨s₁, h₁, rfl⟩

theorem Action.remark_of_some {ω ν α : Type} [Input ω] {tell : Moment → Nat → List ν}
    {x : Action ω ν α} {s s₁ : Session ω ν} {r : Except ParseError α}
    (h : x { s with journal := (tell .entry (Input.position s.input)).reverse ++ s.journal } =
      some (r, s₁)) :
    ∃ s', Action.remark tell x s = some (r, s') ∧ s'.input = s₁.input := by
  unfold Action.remark
  simp only [h]
  cases r with
  | ok a => exact ⟨_, rfl, rfl⟩
  | error e => exact ⟨_, rfl, rfl⟩

/-- All patterns of a grammar are in `P`. -/
def Grammar.Uses {ρ υ ν : Type} (P : Pattern → Prop) : {α : Type} → Grammar ρ υ ν α → Prop
  | _, pattern (.ok p) => P p
  | _, pattern (.error _) => True
  | _, succeed _ => True
  | _, fail _ => True
  | _, bind g next => g.Uses P ∧ ∀ a, (next a).Uses P
  | _, transaction g => g.Uses P
  | _, attempt g => g.Uses P
  | _, orElse g h => g.Uses P ∧ h.Uses P
  | _, label _ g => g.Uses P
  | _, commit g => g.Uses P
  | _, letGo g => g.Uses P
  | _, rule _ => True
  | _, times _ g => g.Uses P
  | _, many _ g => g.Uses P
  | _, remark _ g => g.Uses P

/-- What can be written with the operations of an input.  Remarks of type `ν` are its memory: it may
look at them at any time. -/
inductive Program (ν : Type) : Type → Type 1
  /-- Succeed or fail. -/
  | result {α : Type} (r : Except ParseError α) : Program ν α
  /-- Give no result.  This stands for a part that goes on for ever, and in programs that are cut off
  at a bound for what is beyond it. -/
  | loop {α : Type} : Program ν α
  /-- Run a part, and go on with what it results in, be it a success or a failure. -/
  | handle {α β : Type} (x : Program ν α) (next : Except ParseError α → Program ν β) : Program ν β
  /-- Match a pattern. -/
  | matchPattern (p : Pattern) : Program ν String
  /-- The place in the input. -/
  | position : Program ν Nat
  /-- The remarks so far, the last one first. -/
  | journal : Program ν (List ν)
  /-- Come back if there is a failure. -/
  | attempt {α : Type} (x : Program ν α) : Program ν α
  /-- Come back if there is a failure, unless a trial around does so. -/
  | transaction {α : Type} (x : Program ν α) : Program ν α
  /-- Give up all places to go back to. -/
  | commit : Program ν Unit
  /-- Make remarks about a part. -/
  | remark {α : Type} (tell : Moment → Nat → List ν) (x : Program ν α) : Program ν α

namespace Program

variable {ν ω ρ υ α β : Type}

/-! ### Combinators -/

/-- Go on after a success. -/
def bind (x : Program ν α) (f : α → Program ν β) : Program ν β :=
  handle x fun
    | .ok a => f a
    | .error e => result (.error e)

/-- Change the error of a failure. -/
def mapError (f : ParseError → ParseError) (x : Program ν α) : Program ν α :=
  handle x fun
    | .ok a => result (.ok a)
    | .error e => result (.error (f e))

/-- Try the second if the first fails and the failure can be recovered from. -/
def orElse (x y : Program ν α) : Program ν α :=
  handle (attempt x) fun
    | .ok a => result (.ok a)
    | .error e => if e.isRecoverable then y else result (.error e)

/-- Give up all places to go back to, and then run a part. -/
def letGo (x : Program ν α) : Program ν α := bind commit fun _ => x

/-- Give up all places to go back to, run a part, and try no alternative after its failure. -/
def committed (x : Program ν α) : Program ν α :=
  bind position fun n => mapError (.afterCommit n) (letGo x)

/-- `n` times in a row. -/
def times (x : Program ν α) : Nat → Program ν (List α)
  | 0 => result (.ok [])
  | n + 1 => bind x fun a => bind (times x n) fun l => result (.ok (a :: l))

/-- The rest of a repetition, after an item that was tried from the place `n`. -/
def manyAfter (n : Nat) (more : Program ν (List α)) : Except ParseError α → Program ν (List α)
  | .error e => if e.isRecoverable then result (.ok []) else result (.error e)
  | .ok a => bind position fun n' =>
    if n' = n then result (.ok [a]) else bind more fun l => result (.ok (a :: l))

/-- As often as it succeeds, at most `most` times if there is a bound, until it reads nothing.  The
last argument bounds the number of times. -/
def many (x : Program ν α) : (most : Option Nat) → Nat → Program ν (List α)
  | _, 0 => loop
  | most, n + 1 =>
    if most = some 0 then result (.ok [])
    else bind position fun before =>
      handle (attempt x) (manyAfter before (many x (most.map (· - 1)) n))

/-- The program of a grammar, given the programs of the rules and a bound on repetitions. -/
def ofGrammar (rules : ρ → Program ν υ) (bound : Nat) :
    {α : Type} → Grammar ρ υ ν α → Program ν α
  | _, .pattern (.ok p) => matchPattern p
  | _, .pattern (.error e) => result (.error (.pattern e))
  | _, .succeed a => result (.ok a)
  | _, .fail e => result (.error e)
  | _, .bind g next => bind (ofGrammar rules bound g) fun a => ofGrammar rules bound (next a)
  | _, .transaction g => transaction (ofGrammar rules bound g)
  | _, .attempt g => attempt (ofGrammar rules bound g)
  | _, .orElse g h => orElse (ofGrammar rules bound g) (ofGrammar rules bound h)
  | _, .label m g => mapError (.caused m) (ofGrammar rules bound g)
  | _, .commit g => committed (ofGrammar rules bound g)
  | _, .letGo g => letGo (ofGrammar rules bound g)
  | _, .rule r => rules r
  | _, .times n g => times (ofGrammar rules bound g) n
  | _, .many most g => many (ofGrammar rules bound g) most bound
  | _, .remark tell g => remark tell (ofGrammar rules bound g)

/-- The program of a rule: rules may call rules to the depth of the bound `n`. -/
def ofRule (rules : ρ → Grammar ρ υ ν υ) (bound : Nat) : Nat → ρ → Program ν υ
  | 0, _ => loop
  | n + 1, r => ofGrammar (ofRule rules bound n) bound (rules r)

/-- The program of a grammar with rules, with a bound on the depth of rules and on the length of
repetitions. -/
def ofGrammarWith (rules : ρ → Grammar ρ υ ν υ) (bound : Nat) (g : Grammar ρ υ ν α) :
    Program ν α :=
  ofGrammar (ofRule rules bound bound) bound g

/-! ### Patterns -/

/-- All patterns of a program are in `P`. -/
def Uses (P : Pattern → Prop) : {α : Type} → Program ν α → Prop
  | _, result _ => True
  | _, loop => True
  | _, handle x next => x.Uses P ∧ ∀ r, (next r).Uses P
  | _, matchPattern p => P p
  | _, position => True
  | _, journal => True
  | _, attempt x => x.Uses P
  | _, transaction x => x.Uses P
  | _, commit => True
  | _, remark _ x => x.Uses P

theorem uses_of_forall {P : Pattern → Prop} (hP : ∀ p, P p) (x : Program ν α) : x.Uses P := by
  induction x with
  | result r => trivial
  | loop => trivial
  | handle x next ihx ihnext => exact ⟨ihx, ihnext⟩
  | matchPattern p => exact hP p
  | position => trivial
  | journal => trivial
  | attempt x ih => exact ih
  | transaction x ih => exact ih
  | commit => trivial
  | remark tell x ih => exact ih

section Uses

variable {P : Pattern → Prop} {x y : Program ν α}

theorem Uses.bind {f : α → Program ν β} (hx : x.Uses P) (hf : ∀ a, (f a).Uses P) :
    (bind x f).Uses P := by
  refine ⟨hx, fun r => ?_⟩
  cases r with
  | ok a => exact hf a
  | error e => trivial

theorem Uses.mapError (hx : x.Uses P) (f : ParseError → ParseError) : (mapError f x).Uses P := by
  refine ⟨hx, fun r => ?_⟩
  cases r with
  | ok a => trivial
  | error e => trivial

theorem Uses.orElse (hx : x.Uses P) (hy : y.Uses P) : (orElse x y).Uses P := by
  refine ⟨hx, fun r => ?_⟩
  cases r with
  | ok a => trivial
  | error e =>
    by_cases he : e.isRecoverable = true
    · simp only [if_pos he]
      exact hy
    · simp only [if_neg he]
      trivial

theorem Uses.letGo (hx : x.Uses P) : (letGo x).Uses P := Uses.bind (x := commit) trivial fun _ => hx

theorem Uses.committed (hx : x.Uses P) : (committed x).Uses P :=
  Uses.bind (x := position) trivial fun _ => hx.letGo.mapError _

theorem Uses.times (hx : x.Uses P) (n : Nat) : (times x n).Uses P := by
  induction n with
  | zero => trivial
  | succ n ih => exact hx.bind fun a => ih.bind fun l => trivial

theorem Uses.many (hx : x.Uses P) (most : Option Nat) (n : Nat) : (many x most n).Uses P := by
  induction n generalizing most with
  | zero => trivial
  | succ n ih =>
    unfold Program.many
    by_cases hmost : most = some 0
    · rw [if_pos hmost]
      trivial
    · rw [if_neg hmost]
      refine Uses.bind (x := position) trivial fun before => ⟨hx, fun r => ?_⟩
      cases r with
      | ok a =>
        refine Uses.bind (x := position) trivial fun after => ?_
        by_cases hstill : after = before
        · rw [if_pos hstill]
          trivial
        · rw [if_neg hstill]
          exact (ih _).bind fun l => trivial
      | error e =>
        unfold manyAfter
        by_cases he : e.isRecoverable = true
        · simp only [if_pos he]
          trivial
        · simp only [if_neg he]
          trivial

theorem uses_ofGrammar {rules : ρ → Program ν υ} (hr : ∀ r, (rules r).Uses P) (bound : Nat)
    {α : Type} {g : Grammar ρ υ ν α} (hg : g.Uses P) : (ofGrammar rules bound g).Uses P := by
  induction g with
  | pattern p =>
    cases p with
    | ok p => exact hg
    | error e => trivial
  | succeed a => trivial
  | fail e => trivial
  | bind g next ihg ihnext => exact (ihg hg.1).bind fun a => ihnext a (hg.2 a)
  | transaction g ih => exact ih hg
  | attempt g ih => exact ih hg
  | orElse g h ihg ihh => exact (ihg hg.1).orElse (ihh hg.2)
  | label m g ih => exact (ih hg).mapError _
  | commit g ih => exact (ih hg).committed
  | letGo g ih => exact (ih hg).letGo
  | rule r => exact hr r
  | times n g ih => exact (ih hg).times n
  | many most g ih => exact (ih hg).many most bound
  | remark tell g ih => exact ih hg

theorem uses_ofRule {rules : ρ → Grammar ρ υ ν υ} (hr : ∀ r, (rules r).Uses P) (bound n : Nat)
    (r : ρ) : (ofRule rules bound n r).Uses P := by
  induction n generalizing r with
  | zero => trivial
  | succ n ih => exact uses_ofGrammar ih bound (hr r)

end Uses

/-! ### Running a program -/

section Run

variable [Input ω]

/-- Run a program. -/
def run : {α : Type} → Program ν α → Action ω ν α
  | _, result r => fun s => some (r, s)
  | _, loop => fun _ => none
  | _, handle x next => fun s =>
    match run x s with
    | none => none
    | some (r, s) => run (next r) s
  | _, matchPattern p => Action.matchPattern p
  | _, position => fun s => some (.ok (Input.position s.input), s)
  | _, journal => fun s => some (.ok s.journal, s)
  | _, attempt x => Action.attempt (run x)
  | _, transaction x => Action.transaction (run x)
  | _, commit => fun s => some (.ok (), { s with input := Input.commit s.input })
  | _, remark tell x => Action.remark tell (run x)

theorem run_bind (x : Program ν α) (f : α → Program ν β) :
    (bind x f).run = (Action.bind x.run fun a => (f a).run : Action ω ν β) := by
  funext s
  unfold bind Action.bind
  simp only [run]
  rcases x.run s with _ | ⟨e | a, s₁⟩
  · rfl
  · rfl
  · rfl

theorem run_mapError (f : ParseError → ParseError) (x : Program ν α) :
    (mapError f x).run = (Action.mapError f x.run : Action ω ν α) := by
  funext s
  unfold mapError Action.mapError
  simp only [run]
  rcases x.run s with _ | ⟨e | a, s₁⟩
  · rfl
  · rfl
  · rfl

theorem run_orElse (x y : Program ν α) :
    (orElse x y).run = (Action.orElse x.run y.run : Action ω ν α) := by
  funext s
  unfold orElse Action.orElse
  simp only [run]
  rcases Action.attempt x.run s with _ | ⟨e | a, s₁⟩
  · rfl
  · simp only
    by_cases he : e.isRecoverable = true
    · rw [if_pos he, if_pos he]
    · rw [if_neg he, if_neg he]
      rfl
  · rfl

theorem run_letGo (x : Program ν α) :
    (letGo x).run = (Action.letGo x.run : Action ω ν α) := by
  unfold letGo
  rw [run_bind]
  rfl

theorem run_committed (x : Program ν α) :
    (committed x).run = (Action.commit x.run : Action ω ν α) := by
  unfold committed
  simp only [run_bind, run_mapError, run_letGo]
  rfl

theorem run_times (x : Program ν α) (n : Nat) :
    (times x n).run = (Action.times x.run n : Action ω ν (List α)) := by
  induction n with
  | zero => rfl
  | succ n ih =>
    unfold times Action.times
    simp only [run_bind, ih]
    rfl

theorem run_many (x : Program ν α) (most : Option Nat) (n : Nat) :
    (many x most n).run = (Action.many x.run most n : Action ω ν (List α)) := by
  induction n generalizing most with
  | zero => rfl
  | succ n ih =>
    funext s
    unfold many Action.many
    by_cases hmost : most = some 0
    · rw [if_pos hmost, if_pos hmost]
      rfl
    · rw [if_neg hmost, if_neg hmost, run_bind]
      show (handle (attempt x) _).run s = _
      simp only [run]
      rcases Action.attempt x.run s with _ | ⟨e | a, s₁⟩
      · rfl
      · simp only [manyAfter]
        by_cases he : e.isRecoverable = true
        · rw [if_pos he, if_pos he]
          rfl
        · rw [if_neg he, if_neg he]
          rfl
      · simp only [manyAfter, run_bind]
        show (if Input.position s₁.input = Input.position s.input then _ else _ :
          Program ν (List α)).run s₁ = _
        by_cases hstill : Input.position s₁.input = Input.position s.input
        · rw [if_pos hstill, if_pos hstill]
          rfl
        · rw [if_neg hstill, if_neg hstill, run_bind, ih]
          rfl

/-- The program of a grammar runs as the grammar does, if the programs of the rules do. -/
theorem run_ofGrammar {rules : ρ → Program ν υ} {actions : ρ → Action ω ν υ}
    (hr : ∀ r, (rules r).run = actions r) (bound : Nat) {α : Type} (g : Grammar ρ υ ν α) :
    (ofGrammar rules bound g).run = g.action actions bound := by
  induction g with
  | pattern p =>
    cases p with
    | ok p => rfl
    | error e => rfl
  | succeed a => rfl
  | fail e => rfl
  | bind g next ihg ihnext =>
    simp only [ofGrammar, run_bind, ihg, ihnext]
    rfl
  | transaction g ih =>
    simp only [ofGrammar, run, ih]
    rfl
  | attempt g ih =>
    simp only [ofGrammar, run, ih]
    rfl
  | orElse g h ihg ihh =>
    simp only [ofGrammar, run_orElse, ihg, ihh]
    rfl
  | label m g ih =>
    simp only [ofGrammar, run_mapError, ih]
    rfl
  | commit g ih =>
    simp only [ofGrammar, run_committed, ih]
    rfl
  | letGo g ih =>
    simp only [ofGrammar, run_letGo, ih]
    rfl
  | rule r => exact hr r
  | times n g ih =>
    simp only [ofGrammar, run_times, ih]
    rfl
  | many most g ih =>
    simp only [ofGrammar, run_many, ih]
    rfl
  | remark tell g ih =>
    simp only [ofGrammar, run, ih]
    rfl

theorem run_ofRule (rules : ρ → Grammar ρ υ ν υ) (bound n : Nat) (r : ρ) :
    (ofRule rules bound n r).run = (Grammar.ruleAction rules bound n r : Action ω ν υ) := by
  induction n generalizing r with
  | zero => rfl
  | succ n ih => exact run_ofGrammar ih bound (rules r)

theorem run_ofGrammarWith (rules : ρ → Grammar ρ υ ν υ) (bound : Nat) (g : Grammar ρ υ ν α) :
    (ofGrammarWith rules bound g).run = (g.run rules bound : Action ω ν α) :=
  run_ofGrammar (run_ofRule rules bound bound) bound g

end Run

end Program

end StreamParser
