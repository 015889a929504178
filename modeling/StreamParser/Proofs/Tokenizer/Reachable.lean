import Mathlib.Logic.Relation
import StreamParser.Proofs.Tokenizer.Delivery

/-!
# Reachable tokenizers

* `Tokenizer.Step` says what a tokenizer does to its window in one step: it makes room, reads, or
  consumes a token.  A request is made of such steps (`works_next`, `works_hasNext`, ...), so what
  every step keeps, every request keeps.
* A tokenizer is reachable if it comes from a fresh one by operations of any kind, in any order.  The
  source may do what it likes.  The window of a reachable tokenizer is well formed:
  `Tokenizer.Reachable.ok`.
-/

namespace StreamParser

namespace Tokenizer

variable {σ : Type} [Source σ]

/-! ### Steps -/

/-- What a tokenizer does in one step. -/
inductive Step : Tokenizer σ → Tokenizer σ → Prop
  /-- Something besides the window and the source. -/
  | aside {t t' : Tokenizer σ} (hw : t'.window = t.window) (hs : t'.source = t.source) : Step t t'
  /-- Make room. -/
  | compact (t : Tokenizer σ) : Step t { t with window := t.window.compact }
  /-- Read. -/
  | read (t : Tokenizer σ) : Step t t.read.2
  /-- Consume the token that was found. -/
  | take {t : Tokenizer σ} {p : Pattern} {stop : Nat} {token : String} {w : Window}
    (hv : t.verdict p = .found stop) (hw : t.window.take stop = .ok (token, w)) :
    Step t { t with window := w }

/-- From one tokenizer to a later one by some steps. -/
abbrev Works : Tokenizer σ → Tokenizer σ → Prop := Relation.ReflTransGen Step

variable {t t' : Tokenizer σ}

theorem Works.step (h : Step t t') : Works t t' := .single h

theorem Works.aside (hw : t'.window = t.window) (hs : t'.source = t.source) : Works t t' :=
  .step (.aside hw hs)

/-- A step keeps the window well formed. -/
theorem Step.ok (h : Step t t') (ht : t.window.Ok) : t'.window.Ok := by
  cases h with
  | aside hw hs => exact hw ▸ ht
  | compact => exact ht.compact
  | read => exact (ok_read ht).1
  | take hv hw => exact ht.take (stop_le_of_found ht hv) hw

theorem Works.ok (h : Works t t') (ht : t.window.Ok) : t'.window.Ok := by
  induction h with
  | refl => exact ht
  | tail _ hstep ih => exact hstep.ok ih

theorem works_fill (t : Tokenizer σ) : Works t t.fill.2 := by
  have hnote : Works t (t.note [.initialFill t.window.capacity]) := Works.aside rfl rfl
  have hread := hnote.trans (Works.step (.read _))
  unfold fill
  rcases hr : (t.note [.initialFill t.window.capacity]).read with ⟨e | _, t'⟩ <;> rw [hr] at hread
  · exact hread
  · exact hread.trans (Works.aside rfl rfl)

theorem works_refill (t : Tokenizer σ) : Works t t.refill.2 := by
  have hcompacted : Works t t.compacted := (Works.step (.compact t)).trans (Works.aside rfl rfl)
  rw [refill_eq]
  exact hcompacted.trans (Works.step (.read _))

theorem works_search (p : Pattern) (n : Nat) (t : Tokenizer σ) : Works t (search p n t).2 := by
  induction n generalizing t with
  | zero => exact .refl
  | succ n ih =>
    unfold search
    cases t.verdict p with
    | found stop => exact .aside rfl rfl
    | absent e => exact .aside rfl rfl
    | stuck e => exact .refl
    | wantsMore =>
      simp only
      by_cases hf : t.window.isFull = true
      · rw [if_pos hf]
        exact .aside rfl rfl
      · rw [if_neg hf]
        have hrefill := works_refill { t with phase := .needsInput }
        have hwaits : Works t { t with phase := .needsInput } := .aside rfl rfl
        rcases hr : ({ t with phase := .needsInput } : Tokenizer σ).refill with ⟨e | _, t'⟩ <;>
          rw [hr] at hrefill
        · exact hwaits.trans hrefill
        · exact (hwaits.trans hrefill).trans (ih t')

/-- The place of a token that was found is the one that the window tells. -/
theorem verdict_of_search {p : Pattern} {n : Nat} {stop : Nat}
    (h : search p n t = (.ok stop, t')) : t'.verdict p = .found stop := by
  induction n generalizing t with
  | zero => cases h
  | succ n ih =>
    unfold search at h
    cases hv : t.verdict p with
    | found stop' =>
      rw [hv] at h
      cases h
      exact hv
    | absent e =>
      rw [hv] at h
      cases h
    | stuck e =>
      rw [hv] at h
      cases h
    | wantsMore =>
      rw [hv] at h
      simp only at h
      by_cases hf : t.window.isFull = true
      · rw [if_pos hf] at h
        cases h
      · rw [if_neg hf] at h
        rcases hr : ({ t with phase := .needsInput } : Tokenizer σ).refill with ⟨e | _, t₁⟩ <;>
          rw [hr] at h
        · cases h
        · exact ih h

theorem works_find (t : Tokenizer σ) (p : Pattern) : Works t (t.find p).2 := by
  unfold find
  cases t.phase with
  | closed => exact .refl
  | uninitialized =>
    have hfill := works_fill t
    rcases hr : t.fill with ⟨e | _, t'⟩ <;> rw [hr] at hfill
    · exact hfill
    · exact hfill.trans (works_search p t'.effort t')
  | ready => exact works_search p t.effort t
  | needsInput => exact works_search p t.effort t

theorem verdict_of_find {p : Pattern} {stop : Nat} (h : t.find p = (.ok stop, t')) :
    t'.verdict p = .found stop := by
  unfold find at h
  cases hp : t.phase with
  | closed =>
    rw [hp] at h
    cases h
  | uninitialized =>
    rw [hp] at h
    rcases hr : t.fill with ⟨e | _, t₁⟩ <;> simp only [hr] at h
    · cases h
    · exact verdict_of_search h
  | ready =>
    rw [hp] at h
    exact verdict_of_search h
  | needsInput =>
    rw [hp] at h
    exact verdict_of_search h

/-- A request never goes back. -/
theorem position_le_rawNext (h : t.window.Ok) (p : Pattern) :
    t.position ≤ (t.rawNext p).2.position := by
  obtain ⟨hok, hsame, -⟩ := samePlace_find h p
  rcases rawNext_cases t p with ⟨e, t', hf, hr⟩ | ⟨stop, t', e, hf, -, hr⟩ |
    ⟨stop, t', token, w, hf, htake, hr⟩ <;> rw [hf] at hok hsame <;> rw [hr]
  · exact Nat.le_of_eq hsame.position_eq.symm
  · exact Nat.le_of_eq hsame.position_eq.symm
  · have hmatch := matchAt_of_found (verdict_of_find hf)
    have hle : t'.window.cursor ≤ stop := (Pattern.matchAt_le hok.cursor_le hmatch).1
    have hplace : t'.window.discarded + t'.window.cursor = t.position := hsame.position_eq
    rw [Window.eq_of_take htake]
    show t.position ≤ t'.window.discarded + stop
    omega

/-! ### Requests are made of steps -/

theorem works_rawNext (t : Tokenizer σ) (p : Pattern) : Works t (t.rawNext p).2 := by
  have hfind := works_find t p
  rcases rawNext_cases t p with ⟨e, t', hf, hr⟩ | ⟨stop, t', e, hf, -, hr⟩ |
    ⟨stop, t', token, w, hf, htake, hr⟩ <;> rw [hf] at hfind <;> rw [hr]
  · exact hfind
  · exact hfind
  · have htaken : Works t' { t' with window := w } := .step (.take (verdict_of_find hf) htake)
    exact (hfind.trans htaken).trans (Works.aside rfl rfl)

theorem works_skipAhead (t : Tokenizer σ) : Works t t.skipAhead.2 :=
  skipAhead_of_rawNext .refl (works_rawNext t)

theorem works_nextPattern (t : Tokenizer σ) (p : Pattern) : Works t (t.nextPattern p).2 := by
  have hskip := works_skipAhead t
  unfold nextPattern
  rcases hr : t.skipAhead with ⟨e | _, t'⟩ <;> rw [hr] at hskip
  · exact hskip
  · exact hskip.trans (works_rawNext t' p)

theorem works_pattern (t : Tokenizer σ) (regex : String) : Works t (t.pattern regex).2 := by
  unfold pattern
  rcases t.cache.get regex with ⟨e | e, cache, events⟩
  · exact .aside rfl rfl
  · exact .aside rfl rfl

theorem works_next (t : Tokenizer σ) (regex : String) : Works t (t.next regex).2 := by
  have hpattern := works_pattern t regex
  unfold next
  rcases hr : t.pattern regex with ⟨e | p, t'⟩ <;> rw [hr] at hpattern
  · exact hpattern
  · exact hpattern.trans (works_nextPattern t' p)

theorem works_hasNext (t : Tokenizer σ) (regex : String) : Works t (t.hasNext regex).2 := by
  have hpattern := works_pattern t regex
  unfold hasNext
  rcases hr : t.pattern regex with ⟨e | p, t₁⟩ <;> rw [hr] at hpattern
  · exact hpattern
  · have hskip := works_skipAhead t₁
    simp only
    rcases hs : t₁.skipAhead with ⟨e | _, t₂⟩ <;> rw [hs] at hskip
    · exact hpattern.trans hskip
    · have hfind := works_find t₂ p
      rcases hf : t₂.find p with ⟨e | stop, t₃⟩ <;> rw [hf] at hfind <;> simp only [hf]
      · exact (hpattern.trans hskip).trans hfind
      · exact (hpattern.trans hskip).trans hfind

theorem works_useSkipRegex (t : Tokenizer σ) (regex : String) :
    Works t (t.useSkipRegex regex).2 := by
  have hpattern := works_pattern t regex
  unfold useSkipRegex
  rcases hr : t.pattern regex with ⟨e | p, t'⟩ <;> rw [hr] at hpattern
  · exact hpattern
  · exact hpattern.trans (Works.aside rfl rfl)

/-! ### Other operations -/

omit [Source σ] in
/-- To go back to a mark moves the cursor, or is refused. -/
theorem reset_cases (t : Tokenizer σ) (m : Mark) :
    (∃ n, t.reset m = (.ok (), { t with window := { t.window with cursor := n } })) ∨
      ∃ e, t.reset m = (.error e, t) := by
  unfold reset Window.reset
  by_cases hm : t.holds m = true
  · rw [if_pos hm]
    by_cases hin : m.offset < t.window.discarded ∨
        t.window.discarded + t.window.limit < m.offset
    · rw [if_pos hin]
      exact .inr ⟨_, rfl⟩
    · rw [if_neg hin]
      exact .inl ⟨_, rfl⟩
  · rw [if_neg hm]
    exact .inr ⟨_, rfl⟩

omit [Source σ] in
theorem source_commit (t : Tokenizer σ) : t.commit.source = t.source := by
  unfold commit
  by_cases hdropped : t.window.marks.length = 0
  · simp only [if_pos hdropped]
  · simp only [if_neg hdropped]
    rfl

/-- A tokenizer that is closed stays as it is; another one is closed, and its source with it. -/
theorem close_cases (t : Tokenizer σ) :
    t.phase = .closed ∧ t.close = (.ok (), t) ∨
      t.phase ≠ .closed ∧ ∃ error s result events, Source.close t.source = (error, s) ∧
        t.close = (result, { t with source := s, phase := .closed, events := events }) := by
  unfold close
  by_cases hp : t.phase = .closed
  · rw [if_pos hp]
    exact .inl ⟨hp, rfl⟩
  · rw [if_neg hp]
    rcases hs : Source.close t.source with ⟨_ | e, s⟩
    · simp only [note_source, hs]
      exact .inr ⟨hp, _, _, _, _, rfl, rfl⟩
    · simp only [note_source, hs]
      exact .inr ⟨hp, _, _, _, _, rfl, rfl⟩

/-- A source is closed once. -/
theorem source_close (t : Tokenizer σ) :
    t.close.2.source = t.source ∨ t.close.2.source = (Source.close t.source).2 := by
  rcases close_cases t with ⟨-, hc⟩ | ⟨-, error, s, result, events, hs, hc⟩ <;> rw [hc]
  · exact .inl rfl
  · rw [hs]
    exact .inr rfl

theorem window_close (t : Tokenizer σ) : t.close.2.window = t.window := by
  rcases close_cases t with ⟨-, hc⟩ | ⟨-, error, s, result, events, -, hc⟩ <;> rw [hc]

theorem phase_close (t : Tokenizer σ) : t.close.2.phase = .closed := by
  rcases close_cases t with ⟨hp, hc⟩ | ⟨-, error, s, result, events, -, hc⟩ <;> rw [hc]
  exact hp

omit [Source σ] in
theorem window_commit (t : Tokenizer σ) : t.commit.window = t.window.forget := by
  unfold commit
  by_cases hdropped : t.window.marks.length = 0
  · simp only [if_pos hdropped]
  · simp only [if_neg hdropped, note_window]

/-! ### What can be reached -/

/-- The tokenizers that a client can come to have. -/
inductive Reachable : Tokenizer σ → Prop
  | fresh {s : σ} {t : Tokenizer σ} (h : Fresh s t) : Reachable t
  | next {t : Tokenizer σ} (h : Reachable t) (regex : String) : Reachable (t.next regex).2
  | nextPattern {t : Tokenizer σ} (h : Reachable t) (p : Pattern) : Reachable (t.nextPattern p).2
  | rawNext {t : Tokenizer σ} (h : Reachable t) (p : Pattern) : Reachable (t.rawNext p).2
  | hasNext {t : Tokenizer σ} (h : Reachable t) (regex : String) : Reachable (t.hasNext regex).2
  | mark {t : Tokenizer σ} (h : Reachable t) : Reachable t.mark.2
  | reset {t : Tokenizer σ} (h : Reachable t) (m : Mark) : Reachable (t.reset m).2
  | release {t : Tokenizer σ} (h : Reachable t) (m : Mark) : Reachable (t.release m).2
  | commit {t : Tokenizer σ} (h : Reachable t) : Reachable t.commit
  | close {t : Tokenizer σ} (h : Reachable t) : Reachable t.close.2
  | useSkip {t : Tokenizer σ} (h : Reachable t) (p : Option Pattern) : Reachable (t.useSkip p)
  | useSkipRegex {t : Tokenizer σ} (h : Reachable t) (regex : String) :
    Reachable (t.useSkipRegex regex).2

/-- The window of a reachable tokenizer is well formed. -/
theorem Reachable.ok (h : Reachable t) : t.window.Ok := by
  induction h with
  | fresh h => exact h.ok
  | next h regex ih => exact (works_next _ regex).ok ih
  | nextPattern h p ih => exact (works_nextPattern _ p).ok ih
  | rawNext h p ih => exact (works_rawNext _ p).ok ih
  | hasNext h regex ih => exact (works_hasNext _ regex).ok ih
  | mark h ih => exact ih.mark
  | reset h m ih => exact ok_reset ih m
  | release h m ih => exact ih.release m
  | commit h ih =>
    rw [window_commit]
    exact ih.forget
  | close h ih =>
    rw [window_close]
    exact ih
  | useSkip h p ih => exact ih
  | useSkipRegex h regex ih => exact (works_useSkipRegex _ regex).ok ih

end Tokenizer

end StreamParser
