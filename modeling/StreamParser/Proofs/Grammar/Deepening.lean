import StreamParser.Grammar.Run

/-!
# Runs with larger bounds

A run that comes to an answer within its bound comes to the same answer with every larger bound.

* `Action.Extends x y` says that `y` answers wherever `x` does, and alike.  Each construct of a
  grammar keeps this (`Action.Extends.bind`, `Action.Extends.many`, ...), so that it is enough to
  compare the rules (`Grammar.action_extends`).
* `Grammar.Deepens rules` says that the actions of rules, which may depend on the bound, answer alike
  with every larger one.  That is so of rules that do not depend on it, as parsers that are given
  from outside (`Grammar.deepens_const`), and of rules that are grammars (`Grammar.deepens_ruleAction`).
* `Grammar.run_extends`: the run of a grammar does not depend on the bound once it answers.
-/

namespace StreamParser

namespace Action

variable {ω ν α β : Type} {x x' : Action ω ν α}

/-- Wherever `x` answers, `x'` gives the same answer. -/
def Extends (x x' : Action ω ν α) : Prop := ∀ s r, x s = some r → x' s = some r

namespace Extends

theorem refl (x : Action ω ν α) : Extends x x := fun _ _ h => h

/-- Nothing is said of an action that does not answer. -/
theorem none (x : Action ω ν α) : Extends (fun _ => Option.none) x := fun _ _ h => nomatch h

theorem bind {f f' : α → Action ω ν β} (hx : Extends x x') (hf : ∀ a, Extends (f a) (f' a)) :
    Extends (Action.bind x f) (Action.bind x' f') := by
  intro s r h
  unfold Action.bind at h ⊢
  rcases hs : x s with _ | ⟨e | a, t⟩ <;> simp only [hs] at h
  · cases h
  · rw [hx s _ hs]
    exact h
  · rw [hx s _ hs]
    exact hf a t r h

theorem mapError (hx : Extends x x') (f : ParseError → ParseError) :
    Extends (Action.mapError f x) (Action.mapError f x') := by
  intro s r h
  unfold Action.mapError at h ⊢
  rcases hs : x s with _ | ⟨e | a, t⟩ <;> simp only [hs] at h
  · cases h
  · rw [hx s _ hs]
    exact h
  · rw [hx s _ hs]
    exact h

variable [Input ω]

theorem remark (hx : Extends x x') (tell : Moment → Nat → List ν) :
    Extends (Action.remark tell x) (Action.remark tell x') := by
  intro s r h
  unfold Action.remark at h ⊢
  simp only at h ⊢
  split at h
  · cases h
  · rw [hx _ _ ‹_›]
    exact h
  · rw [hx _ _ ‹_›]
    exact h

theorem attempt (hx : Extends x x') : Extends (Action.attempt x) (Action.attempt x') := by
  intro s r h
  unfold Action.attempt at h ⊢
  simp only at h ⊢
  split at h
  · cases h
  · rw [hx _ _ ‹_›]
    exact h
  · rw [hx _ _ ‹_›]
    exact h

theorem transaction (hx : Extends x x') :
    Extends (Action.transaction x) (Action.transaction x') := by
  intro s r h
  unfold Action.transaction at h ⊢
  by_cases htrying : Input.isTrying s.input = true
  · rw [if_pos htrying] at h ⊢
    exact hx s r h
  · rw [if_neg htrying] at h ⊢
    exact hx.attempt s r h

theorem orElse {y y' : Action ω ν α} (hx : Extends x x') (hy : Extends y y') :
    Extends (Action.orElse x y) (Action.orElse x' y') := by
  intro s r h
  unfold Action.orElse at h ⊢
  rcases hs : Action.attempt x s with _ | ⟨e | a, t⟩ <;> simp only [hs] at h
  · cases h
  · rw [hx.attempt s _ hs]
    by_cases he : e.isRecoverable = true
    · simp only [if_pos he] at h ⊢
      exact hy t r h
    · simp only [if_neg he] at h ⊢
      exact h
  · rw [hx.attempt s _ hs]
    exact h

theorem letGo (hx : Extends x x') : Extends (Action.letGo x) (Action.letGo x') :=
  fun s r h => hx { s with input := Input.commit s.input } r h

theorem commit (hx : Extends x x') : Extends (Action.commit x) (Action.commit x') :=
  fun s r h => hx.letGo.mapError (ParseError.afterCommit (Input.position s.input)) s r h

omit [Input ω] in
theorem times (hx : Extends x x') (n : Nat) : Extends (Action.times x n) (Action.times x' n) := by
  induction n with
  | zero => exact .refl _
  | succ n ih => exact hx.bind fun a => ih.bind fun l => .refl _

/-- Here the bound itself is made larger. -/
theorem many (hx : Extends x x') (most : Option Nat) {n m : Nat} (hn : n ≤ m) :
    Extends (Action.many x most n) (Action.many x' most m) := by
  induction n generalizing most m with
  | zero => exact .none _
  | succ n ih =>
    obtain ⟨m, rfl⟩ := Nat.exists_eq_add_one_of_ne_zero (Nat.ne_zero_of_lt hn)
    intro s r h
    unfold Action.many at h ⊢
    by_cases hmost : most = some 0
    · rw [if_pos hmost] at h ⊢
      exact h
    · rw [if_neg hmost] at h ⊢
      rcases hs : Action.attempt x s with _ | ⟨e | a, t⟩ <;> simp only [hs] at h
      · cases h
      · rw [hx.attempt s _ hs]
        exact h
      · rw [hx.attempt s _ hs]
        by_cases hstill : Input.position t.input = Input.position s.input
        · simp only [if_pos hstill] at h ⊢
          exact h
        · simp only [if_neg hstill] at h ⊢
          exact (ih (most.map (· - 1)) (Nat.le_of_succ_le_succ hn)).bind (fun l => .refl _) t r h

end Extends

end Action

namespace Grammar

open StreamParser.Action (Extends)

variable {ρ υ ν ω : Type} [Input ω]

/-- Rules that answer more often, and a larger bound, make a grammar answer more often. -/
theorem action_extends {rules rules' : ρ → Action ω ν υ} {n m : Nat}
    (hrules : ∀ r, Extends (rules r) (rules' r)) (hn : n ≤ m) {α : Type} (g : Grammar ρ υ ν α) :
    Extends (action rules n g) (action rules' m g) := by
  induction g with
  | pattern p => cases p <;> exact .refl _
  | succeed a => exact .refl _
  | fail e => exact .refl _
  | bind g next ihg ihnext => exact ihg.bind ihnext
  | transaction g ih => exact ih.transaction
  | attempt g ih => exact ih.attempt
  | orElse g h ihg ihh => exact ihg.orElse ihh
  | label message g ih => exact ih.mapError _
  | commit g ih => exact ih.commit
  | letGo g ih => exact ih.letGo
  | rule r => exact hrules r
  | times k g ih => exact ih.times k
  | many most g ih => exact ih.many most hn
  | remark tell g ih => exact ih.remark tell

/-- The actions of rules answer alike with every larger bound. -/
def Deepens (rules : Nat → ρ → Action ω ν υ) : Prop :=
  ∀ {n m : Nat}, n ≤ m → ∀ r, Extends (rules n r) (rules m r)

omit [Input ω] in
/-- Rules that are given from outside, whatever they are. -/
theorem deepens_const (rules : ρ → Action ω ν υ) : Deepens fun _ => rules := fun _ _ => .refl _

theorem ruleAction_extends (rules : ρ → Grammar ρ υ ν υ) {bound bound' n m : Nat}
    (hbound : bound ≤ bound') (hn : n ≤ m) (r : ρ) :
    Extends (ruleAction rules bound n r : Action ω ν υ) (ruleAction rules bound' m r) := by
  induction n generalizing m r with
  | zero => exact .none _
  | succ n ih =>
    obtain ⟨m, rfl⟩ := Nat.exists_eq_add_one_of_ne_zero (Nat.ne_zero_of_lt hn)
    exact action_extends (ih (Nat.le_of_succ_le_succ hn)) hbound (rules r)

/-- Rules that are grammars, and may call each other. -/
theorem deepens_ruleAction (rules : ρ → Grammar ρ υ ν υ) :
    Deepens fun n => (ruleAction rules n n : ρ → Action ω ν υ) :=
  fun hn r => ruleAction_extends rules hn hn r

/-- A run that answers gives the same answer with every larger bound. -/
theorem run_extends (rules : ρ → Grammar ρ υ ν υ) {n m : Nat} (hn : n ≤ m) {α : Type}
    (g : Grammar ρ υ ν α) : Extends (run rules n g : Action ω ν α) (run rules m g) :=
  action_extends (deepens_ruleAction rules hn) hn g

end Grammar

end StreamParser
