import StreamParser.Proofs.Grammar.Agreement

/-!
# Steps over a cursor

What the parts of a run over a cursor do, one equation for each way that a step can go.

* `Session.backTo s n` is the session `s`, back at the place `n`.
* A sequence goes on after a success (`Action.bind_of_ok`), an attempt comes back after a failure
  (`Action.attempt_cursor_error`), and a repetition is over after a failure (`Action.many_of_error`) or
  after an item that is read from nothing (`Action.many_of_stays`), and goes on otherwise
  (`Action.many_of_moves`).
-/

namespace StreamParser

/-- The session, back at another place of its text. -/
def Session.backTo {ν : Type} (s : Session Cursor ν) (n : Nat) : Session Cursor ν :=
  { s with input := { s.input with position := n } }

namespace Action

/-! ### Sequences -/

section Sequence

variable {ω ν α β : Type} {x : Action ω ν α} {s t : Session ω ν}

theorem bind_of_ok {a : α} (hx : x s = some (.ok a, t)) (f : α → Action ω ν β) :
    bind x f s = f a t := by
  unfold bind
  rw [hx]

theorem bind_of_error {e : ParseError} (hx : x s = some (.error e, t)) (f : α → Action ω ν β) :
    bind x f s = some (.error e, t) := by
  unfold bind
  rw [hx]

/-- What comes of a part whose output is changed. -/
theorem exists_of_bind_pure {f : α → β} {r : Except ParseError β × Session ω ν}
    (h : bind x (fun a => pure (f a)) s = some r) :
    ∃ r' u, x s = some (r', u) ∧ r = (r'.map f, u) := by
  rcases hx : x s with _ | ⟨e | a, u⟩
  · unfold bind at h
    rw [hx] at h
    cases h
  · rw [bind_of_error hx] at h
    exact ⟨_, u, rfl, (Option.some.inj h).symm⟩
  · rw [bind_of_ok hx] at h
    exact ⟨_, u, rfl, (Option.some.inj h).symm⟩

end Sequence

variable {ν α : Type} {x y : Action Cursor ν α} {s t : Session Cursor ν} {a : α} {e : ParseError}

theorem matchPattern_cursor (p : Pattern) (s : Session Cursor ν) : matchPattern p s =
    some ((s.input.matchPattern p).1, { s with input := (s.input.matchPattern p).2 }) := rfl

/-! ### Attempts -/

theorem attempt_cursor_ok (hx : x s = some (.ok a, t)) : attempt x s = some (.ok a, t) := by
  rw [attempt_cursor, hx]

theorem attempt_cursor_error (hx : x s = some (.error e, t)) :
    attempt x s = some (.error e, t.backTo s.input.position) := by
  rw [attempt_cursor, hx]
  rfl

/-- An attempt answers only if what is tried does. -/
theorem exists_of_attempt_cursor {r : Except ParseError α × Session Cursor ν}
    (h : attempt x s = some r) : ∃ r', x s = some r' := by
  rw [attempt_cursor] at h
  rcases hx : x s with _ | r'
  · rw [hx] at h
    cases h
  · exact ⟨r', rfl⟩

theorem orElse_cursor_ok (hx : x s = some (.ok a, t)) : orElse x y s = some (.ok a, t) := by
  unfold orElse
  rw [attempt_cursor_ok hx]

theorem orElse_cursor_error (hx : x s = some (.error e, t)) : orElse x y s =
    if e.isRecoverable then y (t.backTo s.input.position)
    else some (.error e, t.backTo s.input.position) := by
  unfold orElse
  rw [attempt_cursor_error hx]

/-! ### Repetitions -/

section Many

variable {most : Option Nat} {n : Nat}

theorem many_of_spent (x : Action Cursor ν α) (n : Nat) (s : Session Cursor ν) :
    many x (some 0) (n + 1) s = some (.ok [], s) := rfl

/-- Where there is no bound it is not used up. -/
theorem unbounded : (none : Option Nat) ≠ some 0 := nofun

/-- After a failure a repetition is over, and back at the place before it. -/
theorem many_of_error (hmost : most ≠ some 0) (hx : x s = some (.error e, t)) (n : Nat) :
    many x most (n + 1) s =
      some (if e.isRecoverable then .ok [] else .error e, t.backTo s.input.position) := by
  unfold many
  rw [if_neg hmost, attempt_cursor_error hx]
  by_cases he : e.isRecoverable = true
  · simp only [if_pos he]
  · simp only [if_neg he]

/-- An item that is read from nothing is the last. -/
theorem many_of_stays (hmost : most ≠ some 0) (hx : x s = some (.ok a, t))
    (hstays : t.input.position = s.input.position) (n : Nat) :
    many x most (n + 1) s = some (.ok [a], t) := by
  have hstays : Input.position t.input = Input.position s.input := hstays
  unfold many
  rw [if_neg hmost, attempt_cursor_ok hx]
  simp only [if_pos hstays]

/-- After another one the repetition goes on. -/
theorem many_of_moves (hmost : most ≠ some 0) (hx : x s = some (.ok a, t))
    (hmoves : t.input.position ≠ s.input.position) (n : Nat) :
    many x most (n + 1) s = bind (many x (most.map (· - 1)) n) (fun l => pure (a :: l)) t := by
  have hmoves : ¬ Input.position t.input = Input.position s.input := hmoves
  conv_lhs => unfold many
  rw [if_neg hmost, attempt_cursor_ok hx]
  simp only [if_neg hmoves]

/-- A repetition answers only if the first attempt does. -/
theorem exists_of_many {r : Except ParseError (List α) × Session Cursor ν} (hmost : most ≠ some 0)
    (h : many x most (n + 1) s = some r) : ∃ r', x s = some r' := by
  unfold many at h
  rw [if_neg hmost] at h
  cases hattempt : attempt x s with
  | none =>
    rw [hattempt] at h
    cases h
  | some r' => exact exists_of_attempt_cursor hattempt

end Many

end Action

end StreamParser
