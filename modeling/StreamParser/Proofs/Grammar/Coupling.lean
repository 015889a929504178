import StreamParser.Grammar.Run

/-!
# Two runs side by side

Two parts of a run, from two sessions that are related, may give the same result and leave sessions
that are related again.

* `Action.Both R E` compares two results: the same output, and the sessions are related by `R`; or the
  same error, and they are related by `E`; or none from either.  After an error less may be known of
  the sessions than after a success, as long as an attempt around comes back.
* `Action.Coupled R E x y` says that `x` and `y` give such results from any sessions related by `R`.
  Each way to put parts together has a lemma.
-/

namespace StreamParser

namespace Action

variable {ω ν α β : Type}

/-- Two results are the same, with sessions related by `R` after a success and by `E` after an error. -/
inductive Both (R E : Session ω ν → Session ω ν → Prop) :
    Option (Except ParseError α × Session ω ν) → Option (Except ParseError α × Session ω ν) → Prop
  | none : Both R E none none
  | ok (a : α) {s u : Session ω ν} (h : R s u) : Both R E (some (.ok a, s)) (some (.ok a, u))
  | error (e : ParseError) {s u : Session ω ν} (h : E s u) :
    Both R E (some (.error e, s)) (some (.error e, u))

/-- From sessions related by `R` the parts give the same result. -/
def Coupled (R E : Session ω ν → Session ω ν → Prop) (x y : Action ω ν α) : Prop :=
  ∀ s u, R s u → Both R E (x s) (y u)

section Both

variable {R E R' E' : Session ω ν → Session ω ν → Prop}
  {r r' : Option (Except ParseError α × Session ω ν)}

/-- What is known of the results may be used to relate the sessions in another way. -/
theorem Both.imp (h : Both R E r r')
    (hR : ∀ a s u, r = some (.ok a, s) → r' = some (.ok a, u) → R s u → R' s u)
    (hE : ∀ e s u, r = some (.error e, s) → r' = some (.error e, u) → E s u → E' s u) :
    Both R' E' r r' := by
  cases h with
  | none => exact .none
  | ok a h => exact .ok a (hR a _ _ rfl rfl h)
  | error e h => exact .error e (hE e _ _ rfl rfl h)

theorem Both.mono (h : Both R E r r') (hR : ∀ s u, R s u → R' s u) (hE : ∀ s u, E s u → E' s u) :
    Both R' E' r r' :=
  h.imp (fun _ _ _ _ _ => hR _ _) fun _ _ _ _ _ => hE _ _

theorem Both.symm (h : Both R E r r') : Both (fun s u => R u s) (fun s u => E u s) r' r := by
  cases h with
  | none => exact .none
  | ok a h => exact .ok a h
  | error e h => exact .error e h

/-- One result may be compared with two others. -/
theorem Both.comp {R'' E'' : Session ω ν → Session ω ν → Prop}
    {r'' : Option (Except ParseError α × Session ω ν)} (h : Both R E r r') (h' : Both R' E' r' r'')
    (hR : ∀ s t u, R s t → R' t u → R'' s u) (hE : ∀ s t u, E s t → E' t u → E'' s u) :
    Both R'' E'' r r'' := by
  cases h with
  | none =>
    cases h'
    exact .none
  | ok a h =>
    cases h' with
    | ok _ h' => exact .ok a (hR _ _ _ h h')
  | error e h =>
    cases h' with
    | error _ h' => exact .error e (hE _ _ _ h h')

theorem Both.of_none (h : Both R E Option.none r) : r = Option.none := by
  cases h
  rfl

theorem Both.of_error {e : ParseError} {s : Session ω ν} (h : Both R E (some (.error e, s)) r) :
    ∃ u, r = some (.error e, u) ∧ E s u := by
  cases h with
  | error _ h => exact ⟨_, rfl, h⟩

theorem Both.of_ok {a : α} {s : Session ω ν} (h : Both R E (some (.ok a, s)) r) :
    ∃ u, r = some (.ok a, u) ∧ R s u := by
  cases h with
  | ok _ h => exact ⟨_, rfl, h⟩

theorem both_some (a : Except ParseError α) {s u : Session ω ν} (h : R s u) :
    Both R R (some (a, s)) (some (a, u)) := by
  cases a with
  | ok a => exact .ok a h
  | error e => exact .error e h

theorem Both.of_some {a : Except ParseError α} {s : Session ω ν} (h : Both R R (some (a, s)) r) :
    ∃ u, r = some (a, u) ∧ R s u := by
  cases h with
  | ok a h => exact ⟨_, rfl, h⟩
  | error e h => exact ⟨_, rfl, h⟩

end Both

section Coupled

variable {R E : Session ω ν → Session ω ν → Prop} {x y : Action ω ν α}

theorem coupled_pure (a : α) : Coupled R E (pure a) (pure a) := fun _ _ h => .ok a h

theorem coupled_fail (hRE : ∀ s u, R s u → E s u) (e : ParseError) :
    Coupled R E (fail e : Action ω ν α) (fail e) :=
  fun s u h => .error e (hRE s u h)

theorem Coupled.bind {f g : α → Action ω ν β} (hx : Coupled R E x y)
    (hf : ∀ a, Coupled R E (f a) (g a)) : Coupled R E (bind x f) (bind y g) := by
  intro s u h
  have hboth := hx s u h
  unfold Action.bind
  generalize x s = r at hboth ⊢
  generalize y u = r' at hboth ⊢
  cases hboth with
  | none => exact .none
  | ok a h₁ => exact hf a _ _ h₁
  | error e h₁ => exact .error e h₁

theorem Coupled.mapError (hx : Coupled R E x y) (f : ParseError → ParseError) :
    Coupled R E (mapError f x) (mapError f y) := by
  intro s u h
  have hboth := hx s u h
  unfold Action.mapError
  generalize x s = r at hboth ⊢
  generalize y u = r' at hboth ⊢
  cases hboth with
  | none => exact .none
  | ok a h₁ => exact .ok a h₁
  | error e h₁ => exact .error (f e) h₁

theorem Coupled.times (hx : Coupled R E x y) (n : Nat) : Coupled R E (times x n) (times y n) := by
  induction n with
  | zero => exact coupled_pure []
  | succ n ih => exact hx.bind fun a => ih.bind fun l => coupled_pure (a :: l)

variable [Input ω]

/-- Remarks do not matter if the sessions are related whatever their journals are. -/
theorem Coupled.remark (hx : Coupled R E x y) (tell : Moment → Nat → List ν)
    (hR : ∀ s u j j', R s u → R { s with journal := j } { u with journal := j' })
    (hE : ∀ s u j j', E s u → E { s with journal := j } { u with journal := j' }) :
    Coupled R E (remark tell x) (remark tell y) := by
  intro s u h
  have hboth := hx _ _ (hR s u ((tell .entry (Input.position s.input)).reverse ++ s.journal)
    ((tell .entry (Input.position u.input)).reverse ++ u.journal) h)
  unfold Action.remark
  simp only
  generalize x _ = r at hboth ⊢
  generalize y _ = r' at hboth ⊢
  cases hboth with
  | none => exact .none
  | ok a h₁ => exact .ok a (hR _ _ _ _ h₁)
  | error e h₁ => exact .error e (hE _ _ _ _ h₁)

/-- The second alternative is read from sessions that are related again. -/
theorem Coupled.orElse {x' y' : Action ω ν α} (hx : Coupled R R (attempt x) (attempt y))
    (hx' : Coupled R E x' y') (hRE : ∀ s u, R s u → E s u) :
    Coupled R E (orElse x x') (orElse y y') := by
  intro s u h
  have hboth := hx s u h
  unfold Action.orElse
  generalize Action.attempt x s = r at hboth ⊢
  generalize Action.attempt y u = r' at hboth ⊢
  cases hboth with
  | none => exact .none
  | ok a h₁ => exact .ok a h₁
  | error e h₁ =>
    simp only
    by_cases he : e.isRecoverable = true
    · rw [if_pos he, if_pos he]
      exact hx' _ _ h₁
    · rw [if_neg he, if_neg he]
      exact .error e (hRE _ _ h₁)

/-- Both repetitions end at the same item if the places are the same. -/
theorem Coupled.many (hx : Coupled R R (attempt x) (attempt y)) (hRE : ∀ s u, R s u → E s u)
    (hplace : ∀ s u, R s u → Input.position u.input = Input.position s.input)
    (most : Option Nat) (n : Nat) : Coupled R E (many x most n) (many y most n) := by
  induction n generalizing most with
  | zero =>
    intro s u h
    exact .none
  | succ n ih =>
    intro s u h
    have hboth := hx s u h
    unfold Action.many
    by_cases hmost : most = some 0
    · rw [if_pos hmost, if_pos hmost]
      exact .ok [] h
    · rw [if_neg hmost, if_neg hmost]
      generalize Action.attempt x s = r at hboth ⊢
      generalize Action.attempt y u = r' at hboth ⊢
      cases hboth with
      | none => exact .none
      | error e h₁ =>
        simp only
        by_cases he : e.isRecoverable = true
        · rw [if_pos he, if_pos he]
          exact .ok [] h₁
        · rw [if_neg he, if_neg he]
          exact .error e (hRE _ _ h₁)
      | @ok a s₁ u₁ h₁ =>
        simp only [hplace s u h, hplace s₁ u₁ h₁]
        by_cases hstill : Input.position s₁.input = Input.position s.input
        · rw [if_pos hstill, if_pos hstill]
          exact .ok [a] h₁
        · rw [if_neg hstill, if_neg hstill]
          have hrest := (ih (most.map (· - 1))).bind fun l => coupled_pure (a :: l)
          exact hrest s₁ u₁ h₁

end Coupled

end Action

end StreamParser
