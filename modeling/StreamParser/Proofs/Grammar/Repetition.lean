import StreamParser.Proofs.Grammar.CursorSteps
import StreamParser.Proofs.Grammar.Deepening

/-!
# Counted repetition

What a cursor offers to a parser that is repeated is a row of things, each of which ends behind the
one before it, and after them a failure that can be recovered from.

* `Action.Row x e s l`: from the session `s` the parser `x` reads the things `l` in a row, given by
  their outputs and the places where they end, and then fails with `e`.
* `Action.Counts y s l e least most` is the specification of a repetition: if there are at least
  `least` things in the row, `y` reads as many as there are, at most `most`; otherwise it fails with
  the error of the attempt after the last of them.
* `Action.counts_times_many`: a number of things that have to be there and then as many as there are,
  within a budget, meet the specification.  `Grammar.repetitions_count` is the statement for all the
  repetitions that a grammar may have.
-/

namespace StreamParser

namespace Action

variable {ν α β : Type} {x y : Action Cursor ν α} {e : ParseError} {s t : Session Cursor ν}
  {l : List (α × Nat)}

/-! ### Rows -/

/-- Things that are read in a row, with their outputs and the places where they end.  Each one goes
on; after the last one comes a failure. -/
inductive Row (x : Action Cursor ν α) (e : ParseError) :
    Session Cursor ν → List (α × Nat) → Prop
  | stop {s t : Session Cursor ν} (hx : x s = some (.error e, t)) (he : e.isRecoverable = true) :
    Row x e s []
  | more {s t : Session Cursor ν} {a : α} {l : List (α × Nat)} (hx : x s = some (.ok a, t))
    (hgoes : s.input.position < t.input.position) (hl : Row x e t l) :
    Row x e s ((a, t.input.position) :: l)

/-- A parser that answers more often reads the same row. -/
theorem Row.mono (h : Row x e s l) (hxy : Extends x y) : Row y e s l := by
  induction h with
  | stop hx he => exact .stop (hxy _ _ hx) he
  | more hx hgoes hl ih => exact .more (hxy _ _ hx) hgoes ih

/-- The outputs of the first `n` things of a row, or of all if there are fewer. -/
def outputs (l : List (α × Nat)) (n : Nat) : List α := (l.take n).map Prod.fst

/-- The place where the first `n` things of a row end that begins at `start`. -/
def endOf (start : Nat) (l : List (α × Nat)) (n : Nat) : Nat :=
  ((l.take n).map Prod.snd).getLastD start

@[simp] theorem outputs_nil (n : Nat) : outputs ([] : List (α × Nat)) n = [] := by
  simp [outputs]

@[simp] theorem outputs_cons (a : α × Nat) (l : List (α × Nat)) (n : Nat) :
    outputs (a :: l) (n + 1) = a.1 :: outputs l n := rfl

@[simp] theorem endOf_nil (start n : Nat) : endOf start ([] : List (α × Nat)) n = start := by
  simp [endOf]

@[simp] theorem endOf_zero (start : Nat) (l : List (α × Nat)) : endOf start l 0 = start := rfl

@[simp] theorem endOf_cons (start : Nat) (a : α × Nat) (l : List (α × Nat)) (n : Nat) :
    endOf start (a :: l) (n + 1) = endOf a.2 l n := by
  unfold endOf
  rw [List.take_succ_cons, List.map_cons, List.getLastD_cons]

/-- A row read in two parts gives all the outputs. -/
theorem outputs_add (l : List (α × Nat)) (n m : Nat) :
    outputs l (n + m) = outputs l n ++ outputs (l.drop n) m := by
  unfold outputs
  rw [List.take_add, List.map_append]

/-- And it ends where the second part ends. -/
theorem endOf_add (start : Nat) (l : List (α × Nat)) (n m : Nat) :
    endOf start l (n + m) = endOf (endOf start l n) (l.drop n) m := by
  induction n generalizing start l with
  | zero => rw [Nat.zero_add, endOf_zero, List.drop_zero]
  | succ n ih =>
    cases l with
    | nil => simp
    | cons a l => rw [Nat.succ_add, endOf_cons, endOf_cons, List.drop_succ_cons, ih]

/-! ### The specification -/

/-- From `s` the repetition `y` reads as many things of the row `l` as there are, at most `most` if
there is a bound; and if there are fewer than `least` it fails with `e`. -/
structure Counts (y : Action Cursor ν (List α)) (s : Session Cursor ν) (l : List (α × Nat))
    (e : ParseError) (least : Nat) (most : Option Nat) : Prop where
  reads : least ≤ l.length → ∃ t, y s = some (.ok (outputs l (most.getD l.length)), t) ∧
    t.input.position = endOf s.input.position l (most.getD l.length)
  fails : l.length < least → ∃ t, y s = some (.error e, t)

/-- A group of steps over a cursor needs no trial of its own. -/
theorem transaction_cursor (x : Action Cursor ν α) : transaction x = x := rfl

/-- A number of things that are there are read, and the rest of the row is left. -/
theorem Row.times (h : Row x e s l) {n : Nat} (hn : n ≤ l.length) :
    ∃ t, Action.times x n s = some (.ok (outputs l n), t) ∧
      t.input.position = endOf s.input.position l n ∧ Row x e t (l.drop n) := by
  induction n generalizing s l with
  | zero => exact ⟨s, rfl, rfl, h⟩
  | succ n ih =>
    cases h with
    | stop hx he => exact absurd hn (Nat.not_succ_le_zero n)
    | @more _ t a l hx hgoes hl =>
      obtain ⟨u, htimes, hposition, hrest⟩ := ih hl (Nat.le_of_succ_le_succ hn)
      refine ⟨u, ?_, ?_, hrest⟩
      · exact (bind_of_ok hx _).trans (bind_of_ok htimes _)
      · rw [hposition, endOf_cons]

/-- If there are too few, the error is that of the attempt after the last one. -/
theorem Row.times_error (h : Row x e s l) {n : Nat} (hn : l.length < n) :
    ∃ t, Action.times x n s = some (.error e, t) := by
  induction h generalizing n with
  | @stop s t hx he =>
    obtain ⟨n, rfl⟩ := Nat.exists_eq_add_one_of_ne_zero (Nat.ne_zero_of_lt hn)
    exact ⟨t, bind_of_error hx _⟩
  | more hx hgoes hl ih =>
    obtain ⟨n, rfl⟩ := Nat.exists_eq_add_one_of_ne_zero (Nat.ne_zero_of_lt hn)
    obtain ⟨u, htimes⟩ := ih (Nat.lt_of_succ_lt_succ hn)
    exact ⟨u, (bind_of_ok hx _).trans (bind_of_error htimes _)⟩

/-- As many things are read as there are, within the budget. -/
theorem Row.many (h : Row x e s l) {m : Nat} (hm : l.length < m) (most : Option Nat) :
    ∃ t, Action.many x most m s = some (.ok (outputs l (most.getD l.length)), t) ∧
      t.input.position = endOf s.input.position l (most.getD l.length) := by
  induction h generalizing most m with
  | @stop s t hx he =>
    obtain ⟨m, rfl⟩ := Nat.exists_eq_add_one_of_ne_zero (Nat.ne_zero_of_lt hm)
    rw [outputs_nil, endOf_nil]
    by_cases hmost : most = some 0
    · rw [hmost]
      exact ⟨s, many_of_spent x m s, rfl⟩
    · -- the attempt goes back to where the row ends
      have hmany := many_of_error hmost hx m
      rw [if_pos he] at hmany
      exact ⟨_, hmany, rfl⟩
  | @more s t a l hx hgoes hl ih =>
    obtain ⟨m, rfl⟩ := Nat.exists_eq_add_one_of_ne_zero (Nat.ne_zero_of_lt hm)
    by_cases hmost : most = some 0
    · rw [hmost]
      exact ⟨s, many_of_spent x m s, rfl⟩
    · -- one thing of the budget is used up
      have hbudget : most.getD (l.length + 1) = (most.map (· - 1)).getD l.length + 1 := by
        rcases most with _ | _ | k
        · rfl
        · exact absurd rfl hmost
        · rfl
      obtain ⟨u, hmany, hposition⟩ := ih (Nat.lt_of_succ_lt_succ hm) (most.map (· - 1))
      refine ⟨u, ?_, ?_⟩
      · rw [many_of_moves hmost hx (Nat.ne_of_gt hgoes), bind_of_ok hmany, List.length_cons, hbudget,
          outputs_cons]
        rfl
      · rw [List.length_cons, hbudget, endOf_cons, hposition]

/-- A number of things that have to be there meet the specification with equal bounds. -/
theorem counts_times (h : Row x e s l) (least : Nat) :
    Counts (transaction (times x least)) s l e least (some least) where
  reads hleast := by
    obtain ⟨t, htimes, hposition, -⟩ := h.times hleast
    exact ⟨t, htimes, hposition⟩
  fails hleast := h.times_error hleast

/-- As many things as there are, within a budget, meet it with no lower bound. -/
theorem counts_many (h : Row x e s l) {m : Nat} (hm : l.length < m) (most : Option Nat) :
    Counts (many x most m) s l e 0 most where
  reads _ := h.many hm most
  fails hleast := absurd hleast (Nat.not_lt_zero _)

/-- Those that have to be there, and then as many as there are within a budget, meet the
specification with the sum of both as the upper bound. -/
theorem counts_times_many (h : Row x e s l) {m : Nat} (hm : l.length < m) (least : Nat)
    (most : Option Nat) :
    Counts (bind (transaction (times x least)) fun first =>
      bind (many x most m) fun rest => pure (first ++ rest)) s l e least
      (most.map (least + ·)) where
  reads hleast := by
    obtain ⟨t, htimes, hposition, hrest⟩ := h.times hleast
    have hdrop : (l.drop least).length = l.length - least := List.length_drop
    obtain ⟨u, hmany, hposition'⟩ := hrest.many (m := m) (by omega) most
    -- how many are read in all
    have htotal : (most.map (least + ·)).getD l.length =
        least + most.getD (l.drop least).length := by
      cases most with
      | none =>
        show l.length = least + (l.drop least).length
        omega
      | some k => rfl
    refine ⟨u, ?_, ?_⟩
    · rw [htotal, outputs_add, transaction_cursor, bind_of_ok htimes, bind_of_ok hmany]
      rfl
    · rw [htotal, endOf_add, hposition', hposition]
  fails hleast := by
    obtain ⟨t, htimes⟩ := h.times_error hleast
    exact ⟨t, bind_of_error htimes _⟩

/-- One thing or none meets it with the bounds zero and one. -/
theorem counts_orElse (h : Row x e s l) :
    Counts (bind (orElse (bind x fun a => pure (some a)) (pure none)) fun o => pure o.toList)
      s l e 0 (some 1) where
  reads _ := by
    cases h with
    | @stop _ t hx he =>
      have hsome : bind x (fun a => pure (some a)) s = some (.error e, t) := bind_of_error hx _
      have hnone := (orElse_cursor_error (y := pure none) hsome).trans (if_pos he)
      exact ⟨t.backTo s.input.position, bind_of_ok hnone _, rfl⟩
    | @more _ t a l hx hgoes hl =>
      have hsome : bind x (fun a => pure (some a)) s = some (.ok (some a), t) := bind_of_ok hx _
      exact ⟨t, bind_of_ok (orElse_cursor_ok hsome) _, rfl⟩
  fails hleast := absurd hleast (Nat.not_lt_zero _)

end Action

namespace Grammar

open StreamParser.Action (Row Counts)

variable {ρ υ ν α : Type} {rules : Nat → ρ → Action Cursor ν υ} {g : Grammar ρ υ ν α} {n : Nat}
  {e : ParseError} {s : Session Cursor ν} {l : List (α × Nat)}

/-- **All counted repetitions meet one specification**, whatever the parser that is repeated, and
however long the row of things is that it reads, as soon as the bound of the run goes beyond it. -/
theorem repetitions_count (hrules : Deepens rules) (hrow : Row (action (rules n) n g) e s l)
    {m : Nat} (hn : n ≤ m) (hm : l.length < m) :
    (∀ least most, least ≤ most → ∃ h, between least most g = .ok h ∧
      Counts (action (rules m) m h) s l e least (some most)) ∧
    (∀ least, Counts (action (rules m) m (atLeast least g)) s l e least none) ∧
    (∀ count, Counts (action (rules m) m (exactly count g)) s l e count (some count)) ∧
    Counts (action (rules m) m (zeroOrMore g)) s l e 0 none ∧
    Counts (action (rules m) m (oneOrMore g)) s l e 1 none ∧
    Counts (action (rules m) m ((zeroOrOne g).map Option.toList)) s l e 0 (some 1) := by
  have hrow : Row (action (rules m) m g) e s l := hrow.mono (action_extends (hrules hn) hn g)
  refine ⟨fun least most hle => ?_, fun least => ?_, fun count => ?_, ?_, ?_, ?_⟩
  · refine ⟨_, if_neg (Nat.not_lt.2 hle), ?_⟩
    have hcounts := Action.counts_times_many hrow hm least (some (most - least))
    rw [Option.map_some, Nat.add_sub_cancel' hle] at hcounts
    exact hcounts
  · exact Action.counts_times_many hrow hm least none
  · exact Action.counts_times hrow count
  · exact Action.counts_many hrow hm none
  · exact Action.counts_times_many hrow hm 1 none
  · exact Action.counts_orElse hrow

/-- Two letters `a`, and then another letter. -/
def twoLetters : Session Cursor Empty := ⟨.start "aab", []⟩

/-- A letter `a`. -/
def letterA : Grammar Empty Unit Empty String := pattern (.ok ⟨"a", .chars (.single 'a')⟩)

/-- One to three letters are asked for, and the two that are there are read; three letters are asked
for, and the third attempt says what is missing. -/
theorem letters_counted :
    Row (action (fun r => r.elim) 1 letterA) (.expected "a" 2) twoLetters [("a", 1), ("a", 2)] ∧
      (∃ h, between 1 3 letterA = .ok h ∧ ∃ t,
        action (fun r => r.elim) 3 h twoLetters = some (.ok ["a", "a"], t) ∧
          t.input.position = 2) ∧
      ∃ t, action (fun r => r.elim) 3 (exactly 3 letterA) twoLetters =
        some (.error (.expected "a" 2), t) := by
  have hrow : Row (action (fun r => r.elim) 1 letterA) (.expected "a" 2) twoLetters
      [("a", 1), ("a", 2)] :=
    .more (t := ⟨⟨Utf8.bytes "aab", 1⟩, []⟩) rfl (by decide)
      (.more (t := ⟨⟨Utf8.bytes "aab", 2⟩, []⟩) rfl (by decide)
        (.stop (t := ⟨⟨Utf8.bytes "aab", 2⟩, []⟩) rfl rfl))
  obtain ⟨hbetween, -, hexactly, -⟩ := repetitions_count (m := 3)
    (deepens_const fun r : Empty => r.elim) hrow (by decide) (by decide)
  obtain ⟨h, hh, hcounts⟩ := hbetween 1 3 (by decide)
  exact ⟨hrow, ⟨h, hh, hcounts.reads (by decide)⟩, (hexactly 3).fails (by decide)⟩

end Grammar

end StreamParser
