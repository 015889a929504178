import StreamParser.Grammar.Run

/-!
# Remarks change nothing

What is read does not depend on the remarks that are made on the way.  So a grammar may be watched:
a remark that is put somewhere in it tells what the run does there, and the run is the same.

* `Grammar.silent g` is the grammar `g` without its remarks.
* `Action.Muted x y` says that `x` and `y` do the same up to their remarks.  Each construct of a
  grammar keeps this (`Action.Muted.bind`, `Action.Muted.many`, ...).
* `Grammar.run_silent`: without its remarks a grammar is read in the same way.
-/

namespace StreamParser

namespace Action

variable {ω ν ν' α β : Type}

/-- Two results are the same up to the journals. -/
inductive SameAnswer :
    Option (Except ParseError α × Session ω ν) → Option (Except ParseError α × Session ω ν') → Prop
  | none : SameAnswer none none
  | ok (a : α) (i : ω) (j : List ν) (j' : List ν') :
    SameAnswer (some (.ok a, ⟨i, j⟩)) (some (.ok a, ⟨i, j'⟩))
  | error (e : ParseError) (i : ω) (j : List ν) (j' : List ν') :
    SameAnswer (some (.error e, ⟨i, j⟩)) (some (.error e, ⟨i, j'⟩))

theorem SameAnswer.of_some {r : Except ParseError α} {s : Session ω ν}
    {o : Option (Except ParseError α × Session ω ν')} (h : SameAnswer (some (r, s)) o) :
    ∃ j, o = some (r, ⟨s.input, j⟩) := by
  cases h with
  | ok a i j j' => exact ⟨j', rfl⟩
  | error e i j j' => exact ⟨j', rfl⟩

/-- From one place of the input, whatever was remarked so far, the parts give the same result. -/
def Muted (x : Action ω ν α) (y : Action ω ν' α) : Prop :=
  ∀ i j j', SameAnswer (x ⟨i, j⟩) (y ⟨i, j'⟩)

variable {x x' : Action ω ν α} {y y' : Action ω ν' α}

theorem muted_pure (a : α) : Muted (pure a : Action ω ν α) (pure a : Action ω ν' α) :=
  fun i j j' => .ok a i j j'

theorem muted_fail (e : ParseError) : Muted (fail e : Action ω ν α) (fail e : Action ω ν' α) :=
  fun i j j' => .error e i j j'

theorem muted_none : Muted (fun _ => none : Action ω ν α) (fun _ => none : Action ω ν' α) :=
  fun _ _ _ => .none

namespace Muted

theorem bind {f : α → Action ω ν β} {g : α → Action ω ν' β} (h : Muted x y)
    (hf : ∀ a, Muted (f a) (g a)) : Muted (Action.bind x f) (Action.bind y g) := by
  intro i j j'
  have hsame := h i j j'
  unfold Action.bind
  generalize x ⟨i, j⟩ = r at hsame ⊢
  generalize y ⟨i, j'⟩ = r' at hsame ⊢
  cases hsame with
  | none => exact .none
  | ok a i₁ k k' => exact hf a i₁ k k'
  | error e i₁ k k' => exact .error e i₁ k k'

theorem mapError (h : Muted x y) (f : ParseError → ParseError) :
    Muted (Action.mapError f x) (Action.mapError f y) := by
  intro i j j'
  have hsame := h i j j'
  unfold Action.mapError
  generalize x ⟨i, j⟩ = r at hsame ⊢
  generalize y ⟨i, j'⟩ = r' at hsame ⊢
  cases hsame with
  | none => exact .none
  | ok a i₁ k k' => exact .ok a i₁ k k'
  | error e i₁ k k' => exact .error (f e) i₁ k k'

theorem times (h : Muted x y) (n : Nat) : Muted (Action.times x n) (Action.times y n) := by
  induction n with
  | zero => exact muted_pure []
  | succ n ih => exact h.bind fun a => ih.bind fun l => muted_pure (a :: l)

variable [Input ω]

/-- What is remarked about a part is seen in the journal only. -/
theorem remark (h : Muted x y) (tell : Moment → Nat → List ν) : Muted (Action.remark tell x) y := by
  intro i j j'
  have hsame := h i ((tell .entry (Input.position i)).reverse ++ j) j'
  unfold Action.remark
  simp only
  generalize x ⟨i, (tell .entry (Input.position i)).reverse ++ j⟩ = r at hsame ⊢
  generalize y ⟨i, j'⟩ = r' at hsame ⊢
  cases hsame with
  | none => exact .none
  | ok a i₁ k k' => exact .ok a i₁ _ k'
  | error e i₁ k k' => exact .error e i₁ _ k'

theorem attempt (h : Muted x y) : Muted (Action.attempt x) (Action.attempt y) := by
  intro i j j'
  have hsame := h (Input.begin i).2 j j'
  unfold Action.attempt
  simp only
  generalize x ⟨(Input.begin i).2, j⟩ = r at hsame ⊢
  generalize y ⟨(Input.begin i).2, j'⟩ = r' at hsame ⊢
  cases hsame with
  | none => exact .none
  | ok a i₁ k k' => exact .ok a _ k k'
  | error e i₁ k k' => exact .error _ _ k k'

theorem transaction (h : Muted x y) : Muted (Action.transaction x) (Action.transaction y) := by
  intro i j j'
  unfold Action.transaction
  cases htrying : Input.isTrying i with
  | true =>
    simp only [if_true]
    exact h i j j'
  | false =>
    simp only [Bool.false_eq_true, if_false]
    exact h.attempt i j j'

theorem orElse (h : Muted x y) (h' : Muted x' y') :
    Muted (Action.orElse x x') (Action.orElse y y') := by
  intro i j j'
  have hsame := h.attempt i j j'
  unfold Action.orElse
  generalize Action.attempt x ⟨i, j⟩ = r at hsame ⊢
  generalize Action.attempt y ⟨i, j'⟩ = r' at hsame ⊢
  cases hsame with
  | none => exact .none
  | ok a i₁ k k' => exact .ok a i₁ k k'
  | error e i₁ k k' =>
    cases he : e.isRecoverable with
    | true =>
      simp only [he, if_true]
      exact h' i₁ k k'
    | false =>
      simp only [he, Bool.false_eq_true, if_false]
      exact .error e i₁ k k'

theorem letGo (h : Muted x y) : Muted (Action.letGo x) (Action.letGo y) :=
  fun i j j' => h (Input.commit i) j j'

theorem commit (h : Muted x y) : Muted (Action.commit x) (Action.commit y) :=
  fun i j j' => h.letGo.mapError (ParseError.afterCommit (Input.position i)) i j j'

theorem many (h : Muted x y) (most : Option Nat) (n : Nat) :
    Muted (Action.many x most n) (Action.many y most n) := by
  induction n generalizing most with
  | zero => exact muted_none
  | succ n ih =>
    intro i j j'
    unfold Action.many
    by_cases hmost : most = some 0
    · simp only [if_pos hmost]
      exact .ok [] i j j'
    · have hsame := h.attempt i j j'
      simp only [if_neg hmost]
      generalize Action.attempt x ⟨i, j⟩ = r at hsame ⊢
      generalize Action.attempt y ⟨i, j'⟩ = r' at hsame ⊢
      cases hsame with
      | none => exact .none
      | ok a i₁ k k' =>
        by_cases hstill : Input.position i₁ = Input.position i
        · simp only [if_pos hstill]
          exact .ok [a] i₁ k k'
        · simp only [if_neg hstill]
          exact (ih (most.map (· - 1))).bind (fun l => muted_pure (a :: l)) i₁ k k'
      | error e i₁ k k' =>
        cases he : e.isRecoverable with
        | true =>
          simp only [he, if_true]
          exact .ok [] i₁ k k'
        | false =>
          simp only [he, Bool.false_eq_true, if_false]
          exact .error e i₁ k k'

end Muted

end Action

namespace Grammar

open StreamParser.Action (Muted)

variable {ρ υ ν ν' ω α : Type}

/-- The grammar without its remarks. -/
def silent : {α : Type} → Grammar ρ υ ν α → Grammar ρ υ ν' α
  | _, pattern p => pattern p
  | _, succeed a => succeed a
  | _, fail e => fail e
  | _, bind g next => bind g.silent fun a => (next a).silent
  | _, transaction g => transaction g.silent
  | _, attempt g => attempt g.silent
  | _, orElse g h => orElse g.silent h.silent
  | _, label m g => label m g.silent
  | _, commit g => commit g.silent
  | _, letGo g => letGo g.silent
  | _, rule r => rule r
  | _, times n g => times n g.silent
  | _, many most g => many most g.silent
  | _, remark _ g => g.silent

/-! ### Combinators without remarks -/

section Combinators

variable {β : Type} (g : Grammar ρ υ ν α) (h : Grammar ρ υ ν β)

theorem silent_map (f : α → β) : (g.map f).silent = (g.silent.map f : Grammar ρ υ ν' β) := rfl

theorem silent_andThen (next : α → Grammar ρ υ ν β) :
    (g.andThen next).silent = (g.silent.andThen fun a => (next a).silent : Grammar ρ υ ν' β) := rfl

theorem silent_seq : (g.seq h).silent = (g.silent.seq h.silent : Grammar ρ υ ν' (α × β)) := rfl

theorem silent_skip : (g.skip h).silent = (g.silent.skip h.silent : Grammar ρ υ ν' α) := rfl

theorem silent_skipLeft : (g.skipLeft h).silent = (g.silent.skipLeft h.silent : Grammar ρ υ ν' β) :=
  rfl

theorem silent_separatedByZeroOrMore : (separatedByZeroOrMore g h).silent =
    (separatedByZeroOrMore g.silent h.silent : Grammar ρ υ ν' (List α)) := by
  unfold separatedByZeroOrMore
  simp only [silent]
  congr 1
  funext first
  cases first with
  | none => rfl
  | some first => rfl

end Combinators

/-! ### Runs without remarks -/

variable [Input ω]

theorem action_silent {rules : ρ → Action ω ν υ} {rules' : ρ → Action ω ν' υ}
    (hrules : ∀ r, Muted (rules r) (rules' r)) (bound : Nat) {α : Type} (g : Grammar ρ υ ν α) :
    Muted (action rules bound g) (action rules' bound g.silent) := by
  induction g with
  | pattern p =>
    cases p with
    | error e => exact Action.muted_fail _
    | ok p =>
      intro i j j'
      show Action.SameAnswer (Action.matchPattern p ⟨i, j⟩) (Action.matchPattern p ⟨i, j'⟩)
      unfold Action.matchPattern
      simp only
      cases (Input.matchPattern p i).1 with
      | ok a => exact .ok a _ j j'
      | error e => exact .error e _ j j'
  | succeed a => exact Action.muted_pure a
  | fail e => exact Action.muted_fail e
  | bind g next ihg ihnext => exact ihg.bind ihnext
  | transaction g ih => exact ih.transaction
  | attempt g ih => exact ih.attempt
  | orElse g h ihg ihh => exact ihg.orElse ihh
  | label message g ih => exact ih.mapError _
  | commit g ih => exact ih.commit
  | letGo g ih => exact ih.letGo
  | rule r => exact hrules r
  | times k g ih => exact ih.times k
  | many most g ih => exact ih.many most bound
  | remark tell g ih => exact ih.remark tell

theorem ruleAction_silent (rules : ρ → Grammar ρ υ ν υ) (bound n : Nat) (r : ρ) :
    Muted (ruleAction rules bound n r : Action ω ν υ)
      (ruleAction (fun r => (rules r).silent) bound n r : Action ω ν' υ) := by
  induction n generalizing r with
  | zero => exact Action.muted_none
  | succ n ih => exact action_silent ih bound (rules r)

/-- Without its remarks, and those of its rules, a grammar is read in the same way. -/
theorem run_silent (rules : ρ → Grammar ρ υ ν υ) (bound : Nat) (g : Grammar ρ υ ν α) :
    Muted (run rules bound g : Action ω ν α)
      (run (fun r => (rules r).silent) bound g.silent : Action ω ν' α) :=
  action_silent (ruleAction_silent rules bound bound) bound g

end Grammar

end StreamParser
