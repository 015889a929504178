import StreamParser.Proofs.Tokenizer.Search

/-!
# Two tokenizers that answer alike

A request is judged by the bytes in the window and answered by reading more of them.  Two tokenizers
whose windows say the same, and that are related again after each read, come to the same answer.

* `Tokenizer.Mirrors R` says so of the tokenizers that `R` relates, which may have sources of
  different types: for each step of a request that they take it together.
* `Tokenizer.Mirrors.find` says that then the whole request is answered alike.
-/

namespace StreamParser

namespace Tokenizer

variable {σ τ : Type} [Source σ] [Source τ]

/-- What two tokenizers that `R` relates do in a request is the same, and `R` relates them again. -/
structure Mirrors (R : Tokenizer σ → Tokenizer τ → Prop) : Prop where
  phase_eq : ∀ {t u}, R t u → u.phase = t.phase
  effort_eq : ∀ {t u}, R t u → u.effort = t.effort
  verdict_eq : ∀ {t u}, R t u → ∀ p, u.verdict p = t.verdict p
  isFull_eq : ∀ {t u}, R t u → u.window.isFull = t.window.isFull
  capacity_eq : ∀ {t u}, R t u → u.window.capacity = t.window.capacity
  pinned_eq : ∀ {t u}, R t u → u.window.pinned = t.window.pinned
  note : ∀ {t u} (l : List Event), R t u → R (t.note l) (u.note l)
  /-- A request is answered, or waits for more bytes. -/
  enter : ∀ {t u} {phase : Phase}, phase = .ready ∨ phase = .needsInput → R t u →
    R { t with phase := phase } { u with phase := phase }
  fill : ∀ {t u}, R t u → t.phase = .uninitialized → u.fill.1 = t.fill.1 ∧ R t.fill.2 u.fill.2
  refill : ∀ {t u}, R t u → t.phase = .needsInput → t.exhausted = false →
    t.window.isFull = false → u.refill.1 = t.refill.1 ∧ R t.refill.2 u.refill.2

namespace Mirrors

variable {R : Tokenizer σ → Tokenizer τ → Prop} {t : Tokenizer σ} {u : Tokenizer τ}

theorem fullError_eq (hR : Mirrors R) (h : R t u) : u.fullError = t.fullError := by
  unfold fullError
  rw [hR.capacity_eq h, hR.pinned_eq h]

/-- By induction on the number of times that the request is judged. -/
theorem search (hR : Mirrors R) (p : Pattern) (n : Nat) (h : R t u) :
    (search p n u).1 = (search p n t).1 ∧ R (search p n t).2 (search p n u).2 := by
  induction n generalizing t u with
  | zero => exact ⟨congrArg Except.error (hR.fullError_eq h), h⟩
  | succ n ih =>
    unfold Tokenizer.search
    rw [hR.verdict_eq h p]
    cases hv : t.verdict p with
    | found stop => exact ⟨rfl, hR.enter (.inl rfl) h⟩
    | absent e => exact ⟨rfl, hR.enter (.inl rfl) h⟩
    | stuck e => exact ⟨rfl, h⟩
    | wantsMore =>
      have hwaits : R { t with phase := .needsInput } { u with phase := .needsInput } :=
        hR.enter (.inr rfl) h
      simp only
      rw [hR.isFull_eq h]
      by_cases hf : t.window.isFull = true
      · rw [if_pos hf, if_pos hf, hR.capacity_eq h, hR.pinned_eq h]
        exact ⟨congrArg Except.error (hR.fullError_eq hwaits), hR.note _ hwaits⟩
      · rw [if_neg hf, if_neg hf]
        obtain ⟨hresult, hnext⟩ := hR.refill hwaits rfl
          (exhausted_of_wantsMore (t := t) hv) ((Bool.not_eq_true _).mp hf)
        generalize ({ u with phase := .needsInput } : Tokenizer τ).refill = after at hresult hnext ⊢
        obtain ⟨answer, u'⟩ := after
        subst hresult
        rcases hr : ({ t with phase := .needsInput } : Tokenizer σ).refill with ⟨e | _, t'⟩
        · rw [hr] at hnext
          exact ⟨rfl, hnext⟩
        · rw [hr] at hnext
          exact ih hnext

/-- **Requests are answered alike.** -/
theorem find (hR : Mirrors R) (h : R t u) (p : Pattern) :
    (u.find p).1 = (t.find p).1 ∧ R (t.find p).2 (u.find p).2 := by
  unfold Tokenizer.find
  rw [hR.phase_eq h, hR.effort_eq h]
  cases hp : t.phase with
  | closed => exact ⟨rfl, h⟩
  | uninitialized =>
    obtain ⟨hresult, hnext⟩ := hR.fill h hp
    generalize u.fill = after at hresult hnext ⊢
    obtain ⟨answer, u'⟩ := after
    subst hresult
    rcases hr : t.fill with ⟨e | _, t'⟩
    · rw [hr] at hnext
      exact ⟨rfl, hnext⟩
    · rw [hr] at hnext
      simp only [hR.effort_eq hnext]
      exact hR.search p _ hnext
  | ready => exact hR.search p _ h
  | needsInput => exact hR.search p _ h

end Mirrors

end Tokenizer

end StreamParser
