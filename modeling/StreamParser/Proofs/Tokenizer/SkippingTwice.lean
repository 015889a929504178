import StreamParser.Proofs.Pattern.Exhaustive
import StreamParser.Proofs.Tokenizer.Atomicity
import StreamParser.Proofs.Tokenizer.LookBehind
import StreamParser.Proofs.Tokenizer.Peeking

/-!
# Asking first, and then skipping again

After `Tokenizer.hasNext` a token may be there to be consumed; but `Tokenizer.next` skips once more
before it consumes, and what is skipped then may begin with that token.

* `Tokenizer.Lengthens t u`: `u` is at the same place as `t`, with more bytes after it unless the
  source had ended.  Answers that were settled stand (`Lengthens.matchAt_eq`).
* `Tokenizer.Spares u p`: the skipping before the next request neither fails nor moves, nor reads
  something that matters to the pattern `p`.  Then what was offered is still there
  (`Offers.spared`).
* `Tokenizer.HasSkipped q t`: nothing is left to skip at the place of `t`.  That is so when an exhaustive
  pattern was skipped (`hasSkipped_of_skipAhead`), and stays so.
* `Tokenizer.next_after_hasNext`: when a token follows, the request for it succeeds, if the skipping
  spares it, and always if the skip pattern is exhaustive.  `hasNext_then_next_fails` has requests that
  fail.
-/

namespace StreamParser

namespace Tokenizer

variable {σ : Type} [Source σ] {t u v : Tokenizer σ} {p q : Pattern}

/-! ### Tokenizers at the same place -/

/-- At the same place as `t`, with more bytes after it; but the same if the source had ended. -/
structure Lengthens (t u : Tokenizer σ) : Prop where
  ok : t.window.Ok
  ok' : u.window.Ok
  position_eq : u.position = t.position
  exists_more : ∃ l more, t.window.Holds l ∧ u.window.Holds (l ++ more)
  ended : t.exhausted = true → u.exhausted = true ∧ u.window.filled = t.window.filled ∧
    u.window.cursor = t.window.cursor

/-- The source has ended, and the window holds the bytes of `w`. -/
structure Ended (w : Window) (t : Tokenizer σ) : Prop where
  ok : t.window.Ok
  isOpen : t.IsOpen
  exhausted_eq : t.exhausted = true
  sameBytes : w.SameBytes t.window

/-- When the source has ended nothing is read. -/
theorem upheld_ended (w : Window) : Upheld fun t : Tokenizer σ => t.Ended w where
  ok h := h.ok
  aside {t t'} h hw hs he hp := by
    refine ⟨hw ▸ h.ok, ?_, he.trans h.exhausted_eq, hw ▸ h.sameBytes⟩
    rcases hp with hp | ⟨-, ho⟩
    · unfold IsOpen
      rw [hp]
      exact h.isOpen
    · exact ho
  place h hok hw :=
    ⟨hok, h.isOpen, h.exhausted_eq, hw.capacity_eq.trans h.sameBytes.capacity_eq,
      hw.filled_eq.trans h.sameBytes.filled_eq, hw.leftover_eq.trans h.sameBytes.leftover_eq,
      hw.discarded_eq.trans h.sameBytes.discarded_eq⟩
  fill h hp := absurd hp h.isOpen.ne_uninitialized
  refill h ho he hf := by
    rw [h.exhausted_eq] at he
    cases he

/-- What a tokenizer does without moving. -/
theorem Lengthens.of_works (hok : t.window.Ok) (ho : t.IsOpen) (hu : Works t u)
    (hended : t.Ended t.window → u.Ended t.window) (hposition : u.position = t.position) :
    Lengthens t u where
  ok := hok
  ok' := hu.ok hok
  position_eq := hposition
  exists_more := by
    have hl := Window.Holds.padded t.window
    obtain ⟨more, hmore⟩ := Works.holds hu hok hl
    exact ⟨_, more, hl, hmore⟩
  ended he := by
    have hu := hended ⟨hok, ho, he, .refl _⟩
    refine ⟨hu.exhausted_eq, hu.sameBytes.filled_eq, ?_⟩
    have hdiscarded := hu.sameBytes.discarded_eq
    have hplace : u.window.discarded + u.window.cursor =
        t.window.discarded + t.window.cursor := hposition
    omega

theorem lengthens_find (hok : t.window.Ok) (ho : t.IsOpen) (p : Pattern) :
    Lengthens t (t.find p).2 :=
  .of_works hok ho (works_find t p) (fun h => (upheld_ended _).find h p)
    (samePlace_find hok p).2.1.position_eq

theorem lengthens_skipAhead (hok : t.window.Ok) (ho : t.IsOpen)
    (hposition : t.skipAhead.2.position = t.position) : Lengthens t t.skipAhead.2 :=
  .of_works hok ho (works_skipAhead t) (fun h => (upheld_ended _).skipAhead h) hposition

omit [Source σ] in
/-- A settled answer of a pattern that can be matched piece by piece stands, counted from the place. -/
theorem Lengthens.matchAt_eq (h : Lengthens t u) (hp : p.Streamable) {m : MatchStatus}
    (hst : p.matchAt t.window.filled t.window.cursor t.exhausted =
      .ok (m.shift t.window.cursor)) (hn : m ≠ .needsInput) :
    p.matchAt u.window.filled u.window.cursor u.exhausted = .ok (m.shift u.window.cursor) := by
  cases he : t.exhausted with
  | true =>
    obtain ⟨hexhausted, hfilled, hcursor⟩ := h.ended he
    rw [hexhausted, hfilled, hcursor, ← he]
    exact hst
  | false =>
    obtain ⟨l, more, hl, hl'⟩ := h.exists_more
    have hunconsumed := unconsumed_of_holds h.ok hl hl' h.position_eq
    rw [he, hp.matchAt_iff h.ok.cursor_le] at hst
    rw [hp.matchAt_iff h.ok'.cursor_le]
    show p.matchAt u.window.unconsumed 0 _ = _
    rw [hunconsumed]
    exact hp.stands _ more _ hst hn _

omit [Source σ] in
/-- If nothing was dropped from the window, bytes were only added to it. -/
theorem Lengthens.exists_filled_eq (h : Lengthens t u)
    (hd : u.window.discarded = t.window.discarded) :
    ∃ more, u.window.filled = t.window.filled ++ more := by
  obtain ⟨l, more, hl, hl'⟩ := h.exists_more
  refine ⟨more, ?_⟩
  rw [hl'.1, hd, hl.1, List.drop_append_of_le_length]
  rw [hl.2]
  exact Nat.le_add_right _ _

/-! ### What is told at a place -/

omit [Source σ] in
theorem verdict_of_matched {stop : Nat}
    (h : p.matchAt t.window.filled t.window.cursor t.exhausted = .ok (.matched stop)) :
    t.verdict p = .found stop := by
  unfold verdict
  rw [h]

omit [Source σ] in
/-- Nothing matches, and there are bytes to tell so or no more to come. -/
theorem verdict_of_noMatch
    (h : p.matchAt t.window.filled t.window.cursor t.exhausted = .ok .noMatch)
    (hjudged : t.window.isDrained = false ∨ t.exhausted = true) : ∃ e, t.verdict p = .absent e := by
  unfold verdict
  rw [h]
  cases hd : t.window.isDrained with
  | false => exact ⟨_, rfl⟩
  | true =>
    rw [hd] at hjudged
    rw [hjudged.resolve_left Bool.noConfusion]
    exact ⟨_, rfl⟩

omit [Source σ] in
theorem noMatch_of_absent {e : TokenError} (h : t.verdict p = .absent e) :
    p.matchAt t.window.filled t.window.cursor t.exhausted = .ok .noMatch ∧
      (t.window.isDrained = false ∨ t.exhausted = true) := by
  unfold verdict at h
  split at h
  · cases h
  · cases h
  · cases h
  · rename_i hm
    refine ⟨hm, ?_⟩
    cases hd : t.window.isDrained with
    | false => exact .inl rfl
    | true =>
      cases he : t.exhausted with
      | true => exact .inr rfl
      | false => simp [hd, he] at h

/-- A request from whose failure there is recovery is known to be in vain. -/
theorem Settles.absent_of_isRecoverable {r : Except TokenError Nat} (hs : Settles p t r u)
    {e : TokenError} (hr : r = .error e) (he : e.isRecoverable = true) :
    u.phase = .ready ∧ u.verdict p = .absent e := by
  induction hs with
  | found hv => cases hr
  | absent hv =>
    cases hr
    exact ⟨rfl, hv⟩
  | stuck hv =>
    cases hr
    cases he
  | @full t hv hf =>
    cases hr
    unfold fullError at he
    split at he <;> cases he
  | failed hv hf hrefill =>
    cases hr
    obtain ⟨e', rfl⟩ := io_of_refill hrefill
    cases he
  | again hv hf hrefill hs ih => exact ih hr

theorem absent_of_find (hok : t.window.Ok) {e : TokenError} (hf : t.find p = (.error e, u))
    (he : e.isRecoverable = true) : u.phase = .ready ∧ u.verdict p = .absent e := by
  rcases find_cases hok p with ⟨-, hf'⟩ | ⟨-, e', t', hfill, hf'⟩ | ⟨t', -, hs⟩
  · rw [hf'] at hf
    cases hf
    cases he
  · rw [hf'] at hf
    cases hf
    obtain ⟨e', rfl⟩ := io_of_fill hfill
    cases he
  · rw [hf] at hs
    exact hs.absent_of_isRecoverable rfl he

/-! ### Skipping -/

/-- What was to be skipped is consumed, or is known not to be there. -/
theorem skipAhead_cases (hok : t.window.Ok) (hq : t.skip = some q)
    (hs : t.skipAhead = (.ok (), u)) :
    (∃ stop t' token w, t.find q = (.ok stop, t') ∧ t'.window.take stop = .ok (token, w) ∧
        u = { t' with window := w }.note [.matched q.source token]) ∨
      ∃ e, u.phase = .ready ∧ u.verdict q = .absent e := by
  unfold skipAhead at hs
  rw [hq] at hs
  have hfind := samePlace_find hok q
  rcases rawNext_cases t q with ⟨e, t', hf, hr⟩ | ⟨stop, t', e, hf, htake, hr⟩ |
    ⟨stop, t', token, w, hf, htake, hr⟩ <;> simp only [hr] at hs
  · by_cases he : e.isRecoverable = true
    · rw [if_pos he] at hs
      cases hs
      exact .inr ⟨e, absent_of_find hok hf he⟩
    · rw [if_neg he] at hs
      cases hs
  · -- what is found can be taken
    rw [hf] at hfind
    obtain ⟨token, w, htake'⟩ := exists_take_of_found hfind.1 (verdict_of_find hf)
    rw [htake] at htake'
    cases htake'
  · cases hs
    exact .inl ⟨stop, t', token, w, hf, htake, rfl⟩

/-- A tokenizer that has skipped is ready, if it was ready or there was something to skip. -/
theorem phase_of_skipAhead (hok : t.window.Ok) (hphase : t.phase = .ready ∨ t.skip ≠ none)
    (hs : t.skipAhead = (.ok (), u)) : u.phase = .ready := by
  cases hq : t.skip with
  | none =>
    rw [skipAhead_of_none hq] at hs
    cases hs
    exact hphase.resolve_right (absurd hq)
  | some q =>
    rcases skipAhead_cases hok hq hs with ⟨stop, t', token, w, hf, -, rfl⟩ | ⟨e, hready, -⟩
    · have hready : t'.phase = .ready := phase_of_find hok hf
      exact hready
    · exact hready

/-- Nothing is left to skip. -/
def HasSkipped (q : Pattern) (t : Tokenizer σ) : Prop :=
  t.verdict q = .found t.window.cursor ∨ ∃ e, t.verdict q = .absent e

/-- When an exhaustive pattern was skipped, nothing is left. -/
theorem hasSkipped_of_skipAhead (hok : t.window.Ok) (hq : t.skip = some q) (hqe : q.IsExhaustive)
    (hs : t.skipAhead = (.ok (), u)) : HasSkipped q u := by
  rcases skipAhead_cases hok hq hs with ⟨stop, t', token, w, hf, htake, rfl⟩ | ⟨e, -, hv⟩
  · have hfind := samePlace_find hok q
    rw [hf] at hfind
    have hmatch := matchAt_of_found (verdict_of_find hf)
    rw [Window.eq_of_take htake]
    rcases hqe _ _ _ _ hfind.1.cursor_le hmatch with hempty | ⟨hno, hjudged⟩
    · exact .inl (verdict_of_matched hempty)
    · refine .inr (verdict_of_noMatch hno (hjudged.imp_left fun hlt => ?_))
      exact beq_eq_false_iff_ne.2 (Nat.ne_of_lt hlt)
  · exact .inr ⟨e, hv⟩

omit [Source σ] in
/-- Where nothing is left to skip, nothing is left later. -/
theorem HasSkipped.lengthens (h : HasSkipped q t) (hq : q.Streamable) (hu : Lengthens t u) :
    HasSkipped q u := by
  rcases h with hfound | ⟨e, habsent⟩
  · exact .inl (verdict_of_matched
      (hu.matchAt_eq hq (m := .matched 0) (matchAt_of_found hfound) MatchStatus.noConfusion))
  · obtain ⟨hno, hjudged⟩ := noMatch_of_absent habsent
    refine .inr (verdict_of_noMatch
      (hu.matchAt_eq hq (m := .noMatch) hno MatchStatus.noConfusion) ?_)
    rcases hjudged with hd | he
    · -- there are bytes after the place, and they stay there
      obtain ⟨l, more, hl, hl'⟩ := hu.exists_more
      have hunconsumed := unconsumed_of_holds hu.ok hl hl' hu.position_eq
      refine .inl (Bool.eq_false_iff.2 fun hd' => ?_)
      rw [hu.ok'.isDrained_iff, hunconsumed, List.append_eq_nil_iff] at hd'
      rw [hu.ok.isDrained_iff.2 hd'.1] at hd
      cases hd
    · exact .inr (hu.ended he).1

/-- To skip where nothing is left succeeds, and leaves the window as it is. -/
theorem HasSkipped.skipAhead (h : HasSkipped q u) (hok : u.window.Ok) (hphase : u.phase = .ready)
    (hq : u.skip = some q) : u.skipAhead.1 = .ok () ∧ u.skipAhead.2.window = u.window := by
  unfold Tokenizer.skipAhead
  rw [hq]
  rcases h with hfound | ⟨e, habsent⟩
  · obtain ⟨token, w, htake⟩ := exists_take_of_found hok hfound
    have hnext : u.rawNext q = (.ok token, { u with window := w }.note [.matched q.source token]) := by
      unfold rawNext
      rw [find_of_found hok hphase hfound]
      simp only [htake]
    simp only [hnext]
    exact ⟨trivial, Window.eq_of_take htake⟩
  · have hnext : u.rawNext q = (.error e, u) :=
      rawNext_of_find_error (find_of_absent hok hphase habsent)
    simp only [hnext, if_pos (isRecoverable_of_absent habsent)]
    exact ⟨trivial, trivial⟩

/-! ### What the next request finds -/

/-- What is skipped before the next request does not disturb one for `p`: to skip succeeds and
consumes nothing; and it leaves the window as it is, or the answer for `p` depends neither on what it
may drop from the window nor on what it may add. -/
structure Spares (u : Tokenizer σ) (p : Pattern) : Prop where
  skips : u.skipAhead.1 = .ok ()
  position_eq : u.skipAhead.2.position = u.position
  window_eq : u.skipAhead.2.window = u.window ∨ p.Streamable ∨
    p.IsBlindToEnd ∧ u.skipAhead.2.window.discarded = u.window.discarded

omit [Source σ] in
theorem cursor_eq_of_position (hd : u.window.discarded = t.window.discarded)
    (hposition : u.position = t.position) : u.window.cursor = t.window.cursor := by
  have hplace : u.window.discarded + u.window.cursor = t.window.discarded + t.window.cursor :=
    hposition
  omega

/-- What was found ends as far behind the place as before. -/
theorem Spares.matchAt_eq (h : Spares u p) (hu : Lengthens u u.skipAhead.2) {k : Nat}
    (hmatch : p.matchAt u.window.filled u.window.cursor u.exhausted =
      .ok (.matched (u.window.cursor + k))) :
    p.matchAt u.skipAhead.2.window.filled u.skipAhead.2.window.cursor u.skipAhead.2.exhausted =
      .ok (.matched (u.skipAhead.2.window.cursor + k)) := by
  -- bytes that come after a settled match
  have hmore : ∀ more, u.exhausted = false →
      (∀ atEnd, p.matchAt (u.window.filled ++ more) u.window.cursor atEnd =
        .ok (.matched (u.window.cursor + k))) ∨ ¬ p.IsBlindToEnd ∧ more ≠ [] := by
    intro more he
    rw [he] at hmatch
    rcases Pattern.matchAt_append_cases hu.ok.cursor_le hmatch MatchStatus.noConfusion more with
      hall | ⟨hblind, -, b, rfl, -⟩
    · exact .inl hall
    · exact .inr ⟨hblind, List.cons_ne_nil _ _⟩
  cases he : u.exhausted with
  | true =>
    obtain ⟨hexhausted, hfilled, hcursor⟩ := hu.ended he
    rw [hexhausted, hfilled, hcursor, ← he]
    exact hmatch
  | false =>
    rcases h.window_eq with hwindow | hp | ⟨hblind, hdiscarded⟩
    · rw [hwindow]
      rcases hmore [] he with hall | ⟨-, hne⟩
      · rw [List.append_nil] at hall
        exact hall _
      · exact absurd rfl hne
    · exact hu.matchAt_eq hp (m := .matched k) hmatch MatchStatus.noConfusion
    · obtain ⟨more, hfilled⟩ := hu.exists_filled_eq hdiscarded
      rw [hfilled, cursor_eq_of_position hdiscarded h.position_eq]
      rcases hmore more he with hall | ⟨hno, -⟩
      · exact hall _
      · exact absurd hblind hno

omit [Source σ] in
/-- The token is the text of its bytes after the place. -/
theorem text?_unconsumed {w w' : Window} {k : Nat} {token : String}
    (h : w.take (w.cursor + k) = .ok (token, w')) :
    Utf8.text? (w.unconsumed.take k) = some token := by
  have htext := Window.text_of_take h
  rwa [List.drop_take, Nat.add_sub_cancel_left] at htext

/-- So what was offered is offered still. -/
theorem Offers.spared {token : String} {after : Tokenizer σ} (h : u.Offers p token after)
    (hspares : Spares u p) : ∃ after', u.skipAhead.2.Offers p token after' := by
  have ho : u.IsOpen := .inl h.phase_eq
  have hu := lengthens_skipAhead h.ok ho hspares.position_eq
  have hphase : u.skipAhead.2.phase = .ready :=
    phase_of_skipAhead h.ok (.inl h.phase_eq) (Prod.ext hspares.skips rfl)
  obtain ⟨stop, hv, w, htake, -⟩ := h.exists_found
  have hmatch := matchAt_of_found hv
  obtain ⟨hle, hstop⟩ := Pattern.matchAt_le h.ok.cursor_le hmatch
  obtain ⟨k, rfl⟩ := Nat.exists_eq_add_of_le hle
  have hfound := verdict_of_matched (hspares.matchAt_eq hu hmatch)
  obtain ⟨token', w', htake'⟩ := exists_take_of_found hu.ok' hfound
  -- both tokens are the first bytes after the place
  obtain ⟨l, more, hl, hl'⟩ := hu.exists_more
  have hunconsumed := unconsumed_of_holds hu.ok hl hl' hu.position_eq
  have hk : k ≤ u.window.unconsumed.length := by
    unfold Window.unconsumed
    rw [List.length_drop]
    omega
  have htext := text?_unconsumed htake'
  rw [hunconsumed, List.take_append_of_le_length hk, text?_unconsumed htake] at htext
  cases htext
  exact ⟨_, hu.ok', hphase, _, hfound, w', htake', rfl⟩

/-! ### Asking first -/

/-- When a token follows, it was looked for after skipping. -/
theorem exists_skipAhead_of_hasNext {regex : String} (h : t.hasNext regex = (.ok true, u)) :
    ∃ p v s stop, t.pattern regex = (.ok p, v) ∧ v.skipAhead = (.ok (), s) ∧
      s.find p = (.ok stop, u) := by
  unfold hasNext at h
  rcases hp : t.pattern regex with ⟨e | p, v⟩ <;> simp only [hp] at h
  · cases h
  · rcases hs : v.skipAhead with ⟨e | _, s⟩ <;> simp only [hs] at h
    · cases h
    · rcases hf : s.find p with ⟨e | stop, u'⟩ <;> simp only [hf] at h
      · split at h <;> cases h
      · cases h
        exact ⟨p, v, s, stop, rfl, hs, hf⟩

omit [Source σ] in
theorem skip_of_pattern (t : Tokenizer σ) (regex : String) :
    (t.pattern regex).2.skip = t.skip := by
  unfold pattern
  rcases t.cache.get regex with ⟨e | e, cache, events⟩ <;> rfl

/-- If the skip pattern is exhaustive, or there is none, to skip once more spares what was found. -/
theorem spares_of_isExhaustive (hok : t.window.Ok) {regex : String}
    (hhas : t.hasNext regex = (.ok true, u)) (hphase : u.phase = .ready)
    (hskip : ∀ q, t.skip = some q → q.Streamable ∧ q.IsExhaustive) (p : Pattern) :
    Spares u p := by
  obtain ⟨r, v, s, stop, hp, hs, hf⟩ := exists_skipAhead_of_hasNext hhas
  have hokv := (works_pattern t regex).ok hok
  have hskipv := skip_of_pattern t regex
  rw [hp] at hokv hskipv
  have hoks := (works_skipAhead v).ok hokv
  rw [hs] at hoks
  have hplace := samePlace_find hoks r
  rw [hf] at hplace
  have hskipu : u.skip = t.skip := by
    have hsame := (sameMarks_skipAhead hokv).skip_eq
    rw [hs] at hsame
    exact hplace.2.1.skip_eq.trans (hsame.trans hskipv)
  have hstill : u.skipAhead.1 = .ok () ∧ u.skipAhead.2.window = u.window := by
    cases hq : t.skip with
    | none =>
      rw [skipAhead_of_none (hskipu.trans hq)]
      exact ⟨rfl, rfl⟩
    | some q =>
      obtain ⟨hqs, hqe⟩ := hskip q hq
      have hqv : v.skip = some q := hskipv.trans hq
      have hready := phase_of_skipAhead hokv (.inr (by rw [hqv]; exact Option.some_ne_none q)) hs
      have hlengthens := lengthens_find hoks (.inl hready) r
      rw [hf] at hlengthens
      have hskipped := (hasSkipped_of_skipAhead hokv hqv hqe hs).lengthens hqs hlengthens
      exact hskipped.skipAhead hplace.1 hphase (hskipu.trans hq)
  exact ⟨hstill.1, congrArg Window.position hstill.2, .inl hstill.2⟩

/-- **A token that is known to follow is what the next request gives**, if to skip once more spares it;
and that is always so if the skip pattern is exhaustive, or if there is none. -/
theorem next_after_hasNext (h : Reachable t) {regex : String} {p : Pattern}
    (hp : Pattern.compile regex = .ok p) (hhas : (t.hasNext regex).1 = .ok true)
    (hskip : Spares (t.hasNext regex).2 p ∨
      ∀ q, t.skip = some q → q.Streamable ∧ q.IsExhaustive) :
    ∃ token, ((t.hasNext regex).2.next regex).1 = .ok token ∧ (t.next regex).1 = .ok token := by
  rcases next_and_hasNext h.ok regex with ⟨e, u, -, hh⟩ | ⟨q, token, u, after, hq, ho, hh, hn⟩
  · rw [hh] at hhas
    simp only [foretold] at hhas
    split at hhas <;> cases hhas
  · have hcompile := (Alike.pattern h.coherent regex).1
    rw [hp, hq] at hcompile
    cases hcompile
    have hspares : Spares u p := by
      rcases hskip with hspares | hskip
      · rw [hh] at hspares
        exact hspares
      · exact spares_of_isExhaustive h.ok hh ho.phase_eq hskip p
    obtain ⟨after', ho'⟩ := ho.spared hspares
    -- to ask for the regular expression is to ask for its pattern
    have hreachable : Reachable u := by
      have := h.hasNext regex
      rwa [hh] at this
    have hasked := ((hreachable.alike_next regex).1 p hp).answer_eq
    have hnext : (u.nextPattern p).1 = .ok token := by
      unfold nextPattern
      rw [show u.skipAhead = (.ok (), u.skipAhead.2) from Prod.ext hspares.skips rfl]
      exact congrArg Prod.fst ho'.rawNext_eq
    refine ⟨token, ?_, ?_⟩
    · rw [hh, hasked, hnext]
    · rw [hn]

/-- A token follows that matches the regular expression, and yet the request for it fails, though the
source delivers all its bytes. -/
structure Misleads (t : Tokenizer Script) (regex : String) (e : TokenError) : Prop where
  reachable : t.Reachable
  delivers : Delivers t.source t.source.bytes
  hasNext_eq : (t.hasNext regex).1 = .ok true
  next_eq : ((t.hasNext regex).2.next regex).1 = .error e

/-- Nine letters, and room for four.  An `a` is skipped, or what begins with `b` and ends with `z`. -/
def swallowing : Tokenizer Script :=
  scripted ⟨Utf8.bytes "abxyxyxyz", [], none⟩ 4 (Pattern.compile "a|b[^z]*z").toOption

/-- Three letters, of which the first two come at once.  An `a` is skipped, or `bc`. -/
def forgetting : Tokenizer Script :=
  scripted ⟨Utf8.bytes "abz", [.hand 2], none⟩ 8 (Pattern.compile "a|bc").toOption

/-- What was found is skipped; or the window has no room to tell whether it is to be skipped; or the
byte before it, which an assertion looks at, is dropped to make room meanwhile. -/
theorem hasNext_then_next_fails :
    skippingA.Misleads "ab" (.inputMismatch "ab") ∧
      swallowing.Misleads "b" (.noSuchElement (.exceedsBuffer 4)) ∧
      forgetting.Misleads "(?-u:\\B)b" (.inputMismatch "(?-u:\\B)b") := by
  refine ⟨⟨reachable_scripted _ (by decide) _, Script.delivers ?_, ?_, ?_⟩,
    ⟨reachable_scripted _ (by decide) _, Script.delivers ?_, ?_, ?_⟩,
    ⟨reachable_scripted _ (by decide) _, Script.delivers ?_, ?_, ?_⟩⟩
  · simp [skippingA, scripted, useSkip]
  · decide +kernel
  · decide +kernel
  · simp [swallowing, scripted, useSkip]
  · decide +kernel
  · decide +kernel
  · simp [forgetting, scripted, useSkip]
  · decide +kernel
  · decide +kernel

/-- The standard configuration, for white space and a letter that come one by one. -/
def spaced : Tokenizer Script := .new ⟨Utf8.bytes " \t a", [], some 1⟩

/-- All the white space is skipped before the letter is found, and none is left. -/
theorem spaced_keeps_its_letter :
    spaced.Reachable ∧ Pattern.compile "a" = .ok ⟨"a", .chars (.single 'a')⟩ ∧
      (spaced.hasNext "a").1 = .ok true ∧
      spaced.skip = some ⟨"\\s*", .rep true 0 none (.chars CodePoints.space)⟩ ∧
      ((spaced.hasNext "a").2.next "a").1 = .ok "a" := by
  have hreachable : spaced.Reachable := .fresh (.inl rfl)
  have hcompile : Pattern.compile "a" = .ok ⟨"a", .chars (.single 'a')⟩ := by rfl
  have hhas : (spaced.hasNext "a").1 = .ok true := by decide +kernel
  have hnext : (spaced.next "a").1 = .ok "a" := by decide +kernel
  have hskip : spaced.skip = some ⟨"\\s*", .rep true 0 none (.chars CodePoints.space)⟩ := by
    decide +kernel
  have hexhaustive : ∀ q, spaced.skip = some q → q.Streamable ∧ q.IsExhaustive := by
    intro q hq
    rw [hskip] at hq
    cases hq
    have hloop := Pattern.isLoop_star CodePoints.space
    exact ⟨Pattern.IsLookFree.streamable hloop.lookFree, Pattern.IsLoop.isExhaustive hloop⟩
  obtain ⟨token, htoken, hnext'⟩ := next_after_hasNext hreachable hcompile hhas (.inr hexhaustive)
  rw [hnext] at hnext'
  cases hnext'
  exact ⟨hreachable, hcompile, hhas, hskip, htoken⟩

end Tokenizer

end StreamParser
