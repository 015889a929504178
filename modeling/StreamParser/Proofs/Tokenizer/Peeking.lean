import StreamParser.Proofs.Tokenizer.Caching
import StreamParser.Proofs.Tokenizer.Failure
import StreamParser.Proofs.Tokenizer.Protocol

/-!
# Asking whether a token follows

`Tokenizer.hasNext` skips and looks for a token as `Tokenizer.next` does, but does not consume it.

* `Tokenizer.next_and_hasNext`: asked of the same tokenizer, both fail, with the same tokenizer after
  it, or the one leaves the tokenizer with the token found in its window, and the other has consumed
  that token.
* A token that was found is found again without a read (`Tokenizer.find_of_found`).
* `Tokenizer.hasNext_foretells_next`: so the one tells whether the other succeeds.
-/

namespace StreamParser

/-- What is told beforehand of a request: whether it succeeds, or why it fails if the failure is
final. -/
def foretold : Except TokenError String → Except TokenError Bool
  | .ok _ => .ok true
  | .error e => if e.isRecoverable then .ok false else .error e

namespace Tokenizer

variable {σ : Type} [Source σ] {t t' u : Tokenizer σ} {p : Pattern}

/-! ### Tokens that were found -/

/-- A request that has found its token leaves the tokenizer ready. -/
theorem Settles.phase_eq {r : Except TokenError Nat} (hs : Settles p t r t') {stop : Nat}
    (hr : r = .ok stop) : t'.phase = .ready := by
  induction hs with
  | found hv => rfl
  | absent hv => cases hr
  | stuck hv => cases hr
  | full hv hf => cases hr
  | failed hv hf hrefill => cases hr
  | again hv hf hrefill hs ih => exact ih hr

theorem phase_of_find (h : t.window.Ok) {stop : Nat} (hf : t.find p = (.ok stop, t')) :
    t'.phase = .ready := by
  rcases find_cases h p with ⟨-, hf'⟩ | ⟨-, e, t₁, -, hf'⟩ | ⟨t₁, -, hs⟩
  · rw [hf'] at hf
    cases hf
  · rw [hf'] at hf
    cases hf
  · rw [hf] at hs
    exact hs.phase_eq rfl

/-- What is in the window already is found without a read, and nothing changes. -/
theorem find_of_found (h : u.window.Ok) (hphase : u.phase = .ready) {stop : Nat}
    (hv : u.verdict p = .found stop) : u.find p = (.ok stop, u) := by
  have hs : Settles p u (.ok stop) { u with phase := .ready } := .found hv
  have hsame : { u with phase := .ready } = u := by rw [← hphase]
  rw [hsame] at hs
  exact hs.find_eq h (.inl hphase)

/-- And so is what is known to be missing. -/
theorem find_of_absent (h : u.window.Ok) (hphase : u.phase = .ready) {e : TokenError}
    (hv : u.verdict p = .absent e) : u.find p = (.error e, u) := by
  have hs : Settles p u (.error e) { u with phase := .ready } := .absent hv
  have hsame : { u with phase := .ready } = u := by rw [← hphase]
  rw [hsame] at hs
  exact hs.find_eq h (.inl hphase)

/-- A token of `p` is in the window, and is the next to be consumed. -/
structure Offers (u : Tokenizer σ) (p : Pattern) (token : String) (after : Tokenizer σ) : Prop where
  ok : u.window.Ok
  phase_eq : u.phase = .ready
  exists_found : ∃ stop, u.verdict p = .found stop ∧ ∃ w, u.window.take stop = .ok (token, w) ∧
    after = { u with window := w }.note [.matched p.source token]

/-- A request takes what is offered. -/
theorem Offers.rawNext_eq {token : String} (h : u.Offers p token t') :
    u.rawNext p = (.ok token, t') := by
  obtain ⟨stop, hv, w, htake, rfl⟩ := h.exists_found
  unfold rawNext
  rw [find_of_found h.ok h.phase_eq hv]
  simp only [htake]

/-- What is found is offered. -/
theorem offers_of_find (h : t.window.Ok) {stop : Nat} (hf : t.find p = (.ok stop, u)) :
    ∃ token after, u.Offers p token after ∧ t.rawNext p = (.ok token, after) := by
  have hok := (samePlace_find h p).1
  rw [hf] at hok
  have hv := verdict_of_find hf
  obtain ⟨token, w, htake⟩ := exists_take_of_found hok hv
  refine ⟨token, _, ⟨hok, phase_of_find h hf, stop, hv, w, htake, rfl⟩, ?_⟩
  unfold rawNext
  rw [hf]
  simp only [htake]

/-! ### To look for a token, and to consume it -/

omit [Source σ] in
/-- There is no recovery from a regular expression that does not compile. -/
theorem isRecoverable_of_pattern {regex : String} {e : TokenError}
    (h : t.pattern regex = (.error e, u)) : e.isRecoverable = false := by
  unfold pattern at h
  rcases hget : t.cache.get regex with ⟨e' | e', cache, events⟩ <;> rw [hget] at h <;> cases h
  rfl

/-- Nor from a failure to skip: the others count as if nothing was there to skip. -/
theorem isRecoverable_of_skipAhead {e : TokenError} (h : t.skipAhead = (.error e, u)) :
    e.isRecoverable = false := by
  cases hq : t.skip with
  | none =>
    rw [skipAhead_of_none hq] at h
    cases h
  | some q =>
    unfold skipAhead at h
    rw [hq] at h
    rcases hr : t.rawNext q with ⟨e' | token, t'⟩ <;> simp only [hr] at h
    · by_cases he : e'.isRecoverable = true
      · rw [if_pos he] at h
        cases h
      · rw [if_neg he] at h
        cases h
        exact Bool.eq_false_iff.2 he
    · cases h

theorem foretold_of_final {e : TokenError} (h : e.isRecoverable = false) :
    foretold (.error e) = .error e := by
  simp only [foretold, h, Bool.false_eq_true, if_false]

/-- Either both requests fail, and leave the tokenizer alike, or the token is offered to the one and
consumed by the other. -/
theorem next_and_hasNext (h : t.window.Ok) (regex : String) :
    (∃ e u, t.next regex = (.error e, u) ∧ t.hasNext regex = (foretold (.error e), u)) ∨
      ∃ p token u after, (t.pattern regex).1 = .ok p ∧ u.Offers p token after ∧
        t.hasNext regex = (.ok true, u) ∧ t.next regex = (.ok token, after) := by
  have hpattern := (works_pattern t regex).ok h
  unfold next hasNext nextPattern
  rcases hp : t.pattern regex with ⟨e | p, t₁⟩ <;> rw [hp] at hpattern
  · exact .inl ⟨e, t₁, rfl, by rw [foretold_of_final (isRecoverable_of_pattern hp)]⟩
  · have hskip := (works_skipAhead t₁).ok hpattern
    rcases hs : t₁.skipAhead with ⟨e | _, t₂⟩ <;> rw [hs] at hskip
    · refine .inl ⟨e, t₂, by simp only [hs], ?_⟩
      rw [foretold_of_final (isRecoverable_of_skipAhead hs)]
      simp only [hs]
    · rcases hf : t₂.find p with ⟨e | stop, u⟩
      · exact .inl ⟨e, u, by simp only [hs, rawNext_of_find_error hf], by simp only [hs, hf]; rfl⟩
      · obtain ⟨token, after, hoffers, hnext⟩ := offers_of_find hskip hf
        exact .inr ⟨p, token, u, after, rfl, hoffers, by simp only [hs, hf], by simp only [hs, hnext]⟩

/-- To look for a token moves no further than to skip. -/
theorem position_hasNext (h : t.window.Ok) {regex : String} (hp : t.pattern regex = (.ok p, u)) :
    (t.hasNext regex).2.position = u.skipAhead.2.position := by
  have hok := (works_pattern t regex).ok h
  rw [hp] at hok
  have hskip := (works_skipAhead u).ok hok
  unfold hasNext
  rw [hp]
  rcases hs : u.skipAhead with ⟨e | _, t₂⟩ <;> rw [hs] at hskip
  · simp only [hs]
  · have hplace := (samePlace_find hskip p).2.1.position_eq
    rcases hf : t₂.find p with ⟨e | stop, t₃⟩ <;> rw [hf] at hplace <;> simp only [hs, hf] <;>
      exact hplace

/-- **To ask whether a token follows tells whether the request for it would succeed**, whatever has
happened before.  It asks the same of the source, and moves as far as is skipped; and a token that
follows is consumed afterwards without a read. -/
theorem hasNext_foretells_next (h : Reachable t) (regex : String) :
    (t.hasNext regex).1 = foretold (t.next regex).1 ∧
      (t.log.hasNext regex).2.source = (t.log.next regex).2.source ∧
      (∀ p u, t.pattern regex = (.ok p, u) →
        (t.hasNext regex).2.position = u.skipAhead.2.position) ∧
      ((t.hasNext regex).1 = .ok true → ∀ p, Pattern.compile regex = .ok p →
        (t.hasNext regex).2.rawNext p = t.next regex ∧
          ((t.hasNext regex).2.log.rawNext p).2.source.calls = []) := by
  have hsource : ∀ {τ : Type} [Source τ] {t : Tokenizer τ}, t.window.Ok →
      (t.hasNext regex).2.source = (t.next regex).2.source := by
    intro τ _ t hok
    rcases next_and_hasNext hok regex with ⟨e, u, hn, hh⟩ | ⟨p, token, u, after, -, ho, hh, hn⟩ <;>
      rw [hn, hh]
    obtain ⟨stop, -, w, -, rfl⟩ := ho.exists_found
    rfl
  refine ⟨?_, hsource (t := t.log) h.ok, fun p u hp => position_hasNext h.ok hp, ?_⟩
  · rcases next_and_hasNext h.ok regex with ⟨e, u, hn, hh⟩ | ⟨p, token, u, after, -, -, hh, hn⟩ <;>
      rw [hn, hh]
    rfl
  · intro htrue p hp
    rcases next_and_hasNext h.ok regex with ⟨e, u, hn, hh⟩ | ⟨q, token, u, after, hq, ho, hh, hn⟩
    · rw [hh] at htrue
      simp only [foretold] at htrue
      split at htrue <;> cases htrue
    · -- the pattern in the cache is the one that is compiled
      have hcompile := (Alike.pattern h.coherent regex).1
      rw [hp, hq] at hcompile
      cases hcompile
      have hlog : u.log.Offers p token after.log := by
        obtain ⟨stop, hv, w, htake, rfl⟩ := ho.exists_found
        exact ⟨ho.ok, ho.phase_eq, stop, hv, w, htake, rfl⟩
      obtain ⟨stop, -, w, -, hafter⟩ := ho.exists_found
      rw [hh, hn, ho.rawNext_eq, hlog.rawNext_eq]
      exact ⟨rfl, congrArg (fun t : Tokenizer σ => t.log.source.calls) hafter⟩

/-- A tokenizer of a script, with room for `capacity` bytes, that skips what matches a pattern. -/
def scripted (source : Script) (capacity : Nat) (skip : Option Pattern) : Tokenizer Script :=
  useSkip ⟨source, .empty capacity, .uninitialized, false, .empty 1, none, []⟩ skip

theorem reachable_scripted (source : Script) {capacity : Nat} (h : 0 < capacity)
    (skip : Option Pattern) : (scripted source capacity skip).Reachable := by
  obtain ⟨n, rfl⟩ := Nat.exists_eq_add_one_of_ne_zero (Nat.ne_of_gt h)
  exact (Reachable.fresh (s := source) (.inr ⟨⟨n + 1, 1, none⟩, rfl⟩)).useSkip skip

/-- Two letters `a` before a `b`, of which an `a` is skipped.  The bytes come one by one, and the
second read brings none. -/
def skippingA : Tokenizer Script :=
  scripted ⟨[0x61, 0x61, 0x62], [.hand 1, .hand 0], some 1⟩ 4 (some ⟨"a", .chars (.single 'a')⟩)

/-- The letters `ab`. -/
def lettersAB : Pattern := ⟨"ab", .seq (.chars (.single 'a')) (.chars (.single 'b'))⟩

/-- The first letter is skipped, and the others are there to be consumed. -/
theorem lettersAB_foretold :
    skippingA.Reachable ∧ Pattern.compile "ab" = .ok lettersAB ∧
      (skippingA.hasNext "ab").1 = .ok true ∧ (skippingA.hasNext "ab").2.position = 1 ∧
      ((skippingA.hasNext "ab").2.rawNext lettersAB).1 = .ok "ab" ∧
      ((skippingA.hasNext "ab").2.log.rawNext lettersAB).2.source.calls = [] := by
  have hreachable : skippingA.Reachable := reachable_scripted _ (by decide) _
  have hcompile : Pattern.compile "ab" = .ok lettersAB := by rfl
  have hnext : (skippingA.next "ab").1 = .ok "ab" := by decide +kernel
  obtain ⟨hforetold, -, -, htakes⟩ := hasNext_foretells_next hreachable "ab"
  rw [hnext] at hforetold
  obtain ⟨htaken, hcalls⟩ := htakes hforetold lettersAB hcompile
  exact ⟨hreachable, hcompile, hforetold, by decide +kernel, by rw [htaken, hnext], hcalls⟩

end Tokenizer

end StreamParser
