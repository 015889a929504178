import StreamParser.Error

/-!
# The chain of causes decides the recovery

Two functions go down an error.  `ParseError.isRecoverable` goes through what explains a failure and
stops at a commit; `ParseError.deepest` goes through both.  What relates them is the chain that the
second one follows.

* `ParseError.cause?` is one step of that descent, and `ParseError.chain` are the errors it passes.
  Its last one is the deepest (`getLast?_chain`, `cause?_deepest`), and the wordings that a report
  shows are those of the chain (`causes_eq`).
* `ParseError.isRecoverable_iff`: an alternative may be tried after an error if and only if nothing on
  its chain is a commit and the deepest error is a mismatch.
* `ParseError.afterCommit_cases` says what a commit makes of an error, from which its laws follow.
* `ParseError.recovery_by_causes` puts together what holds of every error and of both ways to wrap it.
-/

namespace StreamParser

namespace ParseError

/-! ### The chain -/

/-- The error that explains an error. -/
def cause? : ParseError → Option ParseError
  | caused _ e => some e
  | committed _ e => some e
  | _ => none

/-- The error, what explains it, what explains that, and so on. -/
def chain : ParseError → List ParseError
  | caused m e => caused m e :: e.chain
  | committed n e => committed n e :: e.chain
  | e => [e]

/-- A failure after a commit, which no alternative is tried after. -/
def IsCommitted (e : ParseError) : Prop := ∃ n c, e = committed n c

/-- The input is not what a grammar asks for, and nothing else explains the error. -/
inductive IsMismatch : ParseError → Prop
  | failure (m : String) : IsMismatch (failure m)
  | expected (p : String) (n : Nat) : IsMismatch (expected p n)
  | noMatchingElement : IsMismatch noMatchingElement
  | inputMismatch (p : String) : IsMismatch (token (.inputMismatch p))
  | exhausted : IsMismatch (token (.noSuchElement .exhausted))

@[simp] theorem chain_caused (m : String) (e : ParseError) :
    (caused m e).chain = caused m e :: e.chain := rfl

@[simp] theorem chain_committed (n : Nat) (e : ParseError) :
    (committed n e).chain = committed n e :: e.chain := rfl

@[simp] theorem deepest_caused (m : String) (e : ParseError) :
    (caused m e).deepest = e.deepest := rfl

@[simp] theorem deepest_committed (n : Nat) (e : ParseError) :
    (committed n e).deepest = e.deepest := rfl

@[simp] theorem isRecoverable_caused (m : String) (e : ParseError) :
    (caused m e).isRecoverable = e.isRecoverable := rfl

/-- An error comes first on its chain, with the chain of what explains it behind. -/
theorem chain_eq (e : ParseError) :
    e.chain = e :: (match e.cause? with | some c => c.chain | none => []) := by
  cases e <;> rfl

/-- Without an explanation an error is the whole chain and the deepest one. -/
theorem of_cause?_eq_none {e : ParseError} (h : e.cause? = none) :
    e.chain = [e] ∧ e.deepest = e := by
  cases e with
  | caused m e => cases h
  | committed n e => cases h
  | _ => exact ⟨rfl, rfl⟩

/-- Nothing explains the deepest error. -/
theorem cause?_deepest (e : ParseError) : e.deepest.cause? = none := by
  induction e with
  | caused m e ih => exact ih
  | committed n e ih => exact ih
  | _ => rfl

/-- The chain ends with the deepest error. -/
theorem getLast?_chain (e : ParseError) : e.chain.getLast? = some e.deepest := by
  induction e with
  | caused m e ih => simp [List.getLast?_cons, ih]
  | committed n e ih => simp [List.getLast?_cons, ih]
  | _ => rfl

/-- The wordings of the causes are those of the chain.  The failure of a source, which is no error of
a grammar, may stand behind them. -/
theorem causes_eq (e : ParseError) :
    e.causes = e.chain.tail.map message ++ e.deepest.causes := by
  induction e with
  | caused m e ih =>
    show e.message :: e.causes = e.chain.map message ++ e.deepest.causes
    rw [ih, chain_eq e]
    rfl
  | committed n e ih =>
    show e.message :: e.causes = e.chain.map message ++ e.deepest.causes
    rw [ih, chain_eq e]
    rfl
  | _ => rfl

/-! ### Recovery -/

theorem isCommitted_committed (n : Nat) (e : ParseError) : (committed n e).IsCommitted :=
  ⟨n, e, rfl⟩

theorem not_isCommitted_of_cause?_eq_none {e : ParseError} (h : e.cause? = none) :
    ¬ e.IsCommitted := by
  rintro ⟨n, c, rfl⟩
  cases h

/-- Of the errors that nothing explains, those with a recovery are the mismatches. -/
theorem isRecoverable_iff_isMismatch {e : ParseError} (h : e.cause? = none) :
    e.isRecoverable = true ↔ e.IsMismatch := by
  constructor
  · intro he
    cases e with
    | failure m => exact .failure m
    | expected p n => exact .expected p n
    | noMatchingElement => exact .noMatchingElement
    | caused m e => cases h
    | committed n e => cases h
    | invalidArgument m => cases he
    | pattern e => cases he
    | token e =>
      cases e with
      | inputMismatch p => exact .inputMismatch p
      | noSuchElement r =>
        cases r with
        | exhausted => exact .exhausted
        | _ => cases he
      | _ => cases he
  · intro he
    cases he <;> rfl

/-- An alternative may be tried after an error if and only if no error on its chain is a commit and
the deepest one is a mismatch. -/
theorem isRecoverable_iff (e : ParseError) :
    e.isRecoverable = true ↔ (∀ c ∈ e.chain, ¬ c.IsCommitted) ∧ e.deepest.IsMismatch := by
  -- Both descents agree as long as they go through explanations, where the chain grows by an error
  -- that is no commit.  At a commit only one of them goes on, and the chain tells.
  have hleaf {e : ParseError} (h : e.cause? = none) :
      e.isRecoverable = true ↔ (∀ c ∈ e.chain, ¬ c.IsCommitted) ∧ e.deepest.IsMismatch := by
    obtain ⟨hchain, hdeepest⟩ := of_cause?_eq_none h
    rw [isRecoverable_iff_isMismatch h, hchain, hdeepest]
    simp [not_isCommitted_of_cause?_eq_none h]
  induction e with
  | caused m e ih =>
    have hcaused : ¬ (caused m e).IsCommitted := by
      rintro ⟨n, c, h⟩
      cases h
    simp [ih, hcaused]
  | committed n e ih =>
    constructor
    · intro h
      cases h
    · rintro ⟨h, -⟩
      exact absurd (isCommitted_committed n e) (h _ (by simp))
  | _ => exact hleaf rfl

/-! ### Commits -/

/-- A commit wraps an error that has a recovery, and leaves any other one as it is. -/
theorem afterCommit_cases (n : Nat) (e : ParseError) :
    (e.isRecoverable = true ∧ e.afterCommit n = committed n e) ∨
      (e.isRecoverable = false ∧ e.afterCommit n = e) := by
  unfold afterCommit
  cases he : e.isRecoverable with
  | true => exact .inl ⟨rfl, rfl⟩
  | false => exact .inr ⟨rfl, rfl⟩

theorem afterCommit_of_not_isRecoverable {e : ParseError} (he : e.isRecoverable = false) (n : Nat) :
    e.afterCommit n = e := by
  obtain ⟨h, -⟩ | ⟨-, h⟩ := afterCommit_cases n e
  · rw [he] at h
    cases h
  · exact h

/-- There is no recovery from an error that is reported after a commit. -/
theorem isRecoverable_afterCommit (n : Nat) (e : ParseError) :
    (e.afterCommit n).isRecoverable = false := by
  obtain ⟨-, h⟩ | ⟨he, h⟩ := afterCommit_cases n e
  · rw [h]
    rfl
  · rw [h, he]

theorem deepest_afterCommit (n : Nat) (e : ParseError) : (e.afterCommit n).deepest = e.deepest := by
  obtain ⟨-, h⟩ | ⟨-, h⟩ := afterCommit_cases n e
  · rw [h, deepest_committed]
  · rw [h]

/-- Only the first commit is reported. -/
theorem afterCommit_afterCommit (k n : Nat) (e : ParseError) :
    (e.afterCommit n).afterCommit k = e.afterCommit n :=
  afterCommit_of_not_isRecoverable (isRecoverable_afterCommit n e) k

/-! ### All together -/

/-- The chain of causes decides whether an alternative may be tried after an error: it may if and only
if the chain, which ends with the deepest error, has no commit and ends with a mismatch.  To explain
another failure by the error changes neither the answer nor the deepest error; to report it after a
commit leaves the deepest error and no recovery, and a second commit then changes nothing. -/
theorem recovery_by_causes (e : ParseError) :
    (e.isRecoverable = true ↔ (∀ c ∈ e.chain, ¬ c.IsCommitted) ∧ e.deepest.IsMismatch) ∧
      (e.chain = e :: (match e.cause? with | some c => c.chain | none => []) ∧
        e.chain.getLast? = some e.deepest ∧ e.deepest.cause? = none) ∧
      (∀ m, (caused m e).isRecoverable = e.isRecoverable ∧ (caused m e).deepest = e.deepest) ∧
      ∀ n, (e.afterCommit n).isRecoverable = false ∧ (e.afterCommit n).deepest = e.deepest ∧
        ∀ k, (e.afterCommit n).afterCommit k = e.afterCommit n :=
  ⟨isRecoverable_iff e, ⟨chain_eq e, getLast?_chain e, cause?_deepest e⟩,
    fun m => ⟨isRecoverable_caused m e, deepest_caused m e⟩,
    fun n => ⟨isRecoverable_afterCommit n e, deepest_afterCommit n e,
      fun k => afterCommit_afterCommit k n e⟩⟩

end ParseError

end StreamParser
