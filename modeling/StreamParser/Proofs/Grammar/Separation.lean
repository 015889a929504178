import StreamParser.Proofs.Grammar.CursorSteps
import StreamParser.Proofs.Grammar.Repetition

/-!
# Separated lists

A separated list is a first thing, and a row of things each of which comes after a separator.

* `Action.Reads x s a stop`: from the session `s` the part reads `a`, and ends at the place `stop`.
* `Grammar.separated_reads`: the list has the outputs of all the things and of no separator, and it
  ends with the last thing.  What comes of a separator behind it does not matter.
* `Grammar.separated_fails`: without a first thing the list fails as that does, or it is empty.
-/

namespace StreamParser

namespace Action

variable {ν α β : Type} {x : Action Cursor ν α} {s t : Session Cursor ν} {e : ParseError}

/-- From `s` the part reads `a`, and ends at the place `stop`. -/
def Reads (x : Action Cursor ν α) (s : Session Cursor ν) (a : α) (stop : Nat) : Prop :=
  ∃ t, x s = some (.ok a, t) ∧ t.input.position = stop

/-- What is read after something else. -/
theorem Reads.bind {f : α → Action Cursor ν β} {a : α} {b : β} {stop : Nat}
    (hx : x s = some (.ok a, t)) (h : Reads (f a) t b stop) : Reads (Action.bind x f) s b stop := by
  obtain ⟨u, hu, hstop⟩ := h
  exact ⟨u, (bind_of_ok hx f).trans hu, hstop⟩

/-- All of a row is read behind a first thing. -/
theorem Row.reads {l : List (α × Nat)} (h : Row x e s l) {m : Nat} (hm : l.length < m) (first : α) :
    Reads (Action.bind (Action.many x none m) fun rest => pure (first :: rest)) s
      (first :: l.map Prod.fst) ((l.map Prod.snd).getLastD s.input.position) := by
  obtain ⟨t, hmany, hstop⟩ := h.many hm none
  unfold outputs at hmany
  unfold endOf at hstop
  rw [Option.getD_none, List.take_length] at hmany hstop
  exact .bind hmany ⟨t, rfl, hstop⟩

end Action

namespace Grammar

open StreamParser.Action (Row Reads)

variable {ρ υ ν α β : Type} {rules : Nat → ρ → Action Cursor ν υ} {g : Grammar ρ υ ν α}
  {separator : Grammar ρ υ ν β} {n m : Nat} {e : ParseError} {s t : Session Cursor ν}

/-- After a first thing, and as long as a separator and another thing can be read, the list goes on.
It ends behind the last thing. -/
theorem separated_reads (hrules : Deepens rules) {a : α} {l : List (α × Nat)}
    (hfirst : action (rules n) n g s = some (.ok a, t))
    (hrow : Row (action (rules n) n (separator.skipLeft g)) e t l) (hn : n ≤ m)
    (hm : l.length < m) :
    Reads (action (rules m) m (separatedByOneOrMore g separator)) s
        (a :: l.map Prod.fst) ((l.map Prod.snd).getLastD t.input.position) ∧
      Reads (action (rules m) m (separatedByZeroOrMore g separator)) s
        (a :: l.map Prod.fst) ((l.map Prod.snd).getLastD t.input.position) := by
  have hfirst := action_extends (hrules hn) hn g s _ hfirst
  have hrest := (hrow.mono (action_extends (hrules hn) hn _)).reads hm a
  refine ⟨.bind (Action.attempt_cursor_ok hfirst) hrest, .bind (a := some a) ?_ hrest⟩
  -- the first thing is there
  have hsome : action (rules m) m (g.map some) s = some (.ok (some a), t) :=
    Action.bind_of_ok hfirst _
  exact Action.orElse_cursor_ok hsome

/-- Without a first thing the list of one thing or more fails with the error of the first thing; the
list of any number of things does so too, unless there is recovery: then it is empty. -/
theorem separated_fails (hrules : Deepens rules)
    (hfirst : action (rules n) n g s = some (.error e, t)) (hn : n ≤ m) :
    (∃ u, action (rules m) m (separatedByOneOrMore g separator) s = some (.error e, u)) ∧
      (e.isRecoverable = true →
        Reads (action (rules m) m (separatedByZeroOrMore g separator)) s [] s.input.position) ∧
      (e.isRecoverable = false →
        ∃ u, action (rules m) m (separatedByZeroOrMore g separator) s = some (.error e, u)) := by
  have hfirst := action_extends (hrules hn) hn g s _ hfirst
  have hsome : action (rules m) m (g.map some) s = some (.error e, t) :=
    Action.bind_of_error hfirst _
  have hzero : action (rules m) m (zeroOrOne g) s = _ := Action.orElse_cursor_error hsome
  refine ⟨⟨_, Action.bind_of_error (Action.attempt_cursor_error hfirst) _⟩, fun he => ?_,
    fun he => ?_⟩
  · rw [if_pos he] at hzero
    exact .bind hzero ⟨_, rfl, rfl⟩
  · rw [if_neg (Bool.eq_false_iff.1 he)] at hzero
    exact ⟨_, Action.bind_of_error hzero _⟩

end Grammar

end StreamParser
