import StreamParser.Proofs.Tokenizer.Protocol

/-!
# What the error of a request tells

* `Tokenizer.Says t p e` is what the error `e` says of the tokenizer `t` after a request for `p` has
  failed with it, and `Tokenizer.says_of_rawNext` says that this is true.
* `Tokenizer.Lacks.rawNext_eq`: as long as there is no room the request fails again.
* `Tokenizer.Hears` is the invariant of a tokenizer with a log that takes the input to have ended only
  when its source has told so.
* `Tokenizer.errors_tell_the_truth`: what the error says of the bytes that are not consumed, of the marks
  and of the source is true after the request.
-/

namespace StreamParser

variable {σ : Type} [Source σ]

namespace Tokenizer

/-! ### What errors say -/

/-- A request for `p` needs more bytes than the window has room for. -/
structure Lacks (t : Tokenizer σ) (p : Pattern) : Prop where
  wantsMore : t.verdict p = .wantsMore
  isFull : t.window.isFull = true
  isOpen : t.IsOpen

/-- What an error says of the tokenizer after a request for `p` has failed with it. -/
def Says (t : Tokenizer σ) (p : Pattern) : TokenError → Prop
  | .inputMismatch q => q = p.source ∧ t.window.unconsumed ≠ []
  | .noSuchElement .exhausted => t.window.unconsumed = [] ∧ t.exhausted = true
  | .noSuchElement (.exceedsBuffer n) => t.Lacks p ∧ n = t.window.capacity ∧ t.window.pinned = 0
  | .windowFull n k => t.Lacks p ∧ n = t.window.capacity ∧ k = t.window.pinned ∧ 0 < k
  | _ => True

variable {t t' : Tokenizer σ} {p : Pattern} {e : TokenError}

omit [Source σ] in
theorem says_of_absent (h : t.window.Ok) (hv : t.verdict p = .absent e) : t.Says p e := by
  have hdrained := h.isDrained_iff
  unfold verdict at hv
  split at hv
  · cases hv
  · cases hv
  · cases hv
  · split at hv
    · rename_i hrest
      cases hv
      refine ⟨rfl, fun hnil => ?_⟩
      rw [hdrained.2 hnil] at hrest
      cases hrest
    · rename_i hnone
      split at hv <;> cases hv
      rename_i hexhausted
      exact ⟨hdrained.1 (by simpa using hnone), hexhausted⟩

omit [Source σ] in
theorem Lacks.says (h : t.Lacks p) : t.Says p t.fullError := by
  unfold fullError
  by_cases hpinned : t.window.pinned = 0
  · rw [if_pos hpinned]
    exact ⟨h, rfl, hpinned⟩
  · rw [if_neg hpinned]
    exact ⟨h, rfl, rfl, Nat.pos_of_ne_zero hpinned⟩

/-- By induction on the reads that the request makes. -/
theorem Settles.says {r : Except TokenError Nat} (hs : Settles p t r t') (h : t.window.Ok)
    (he : r = .error e) : t'.Says p e := by
  induction hs with
  | found hv => cases he
  | @absent t e' hv =>
    cases he
    exact says_of_absent (t := { t with phase := .ready }) h hv
  | stuck hv =>
    cases he
    exact trivial
  | @full t hv hf =>
    cases he
    have hlacks : Lacks ({ t with phase := .needsInput }.note
        [.noRoom p.source t.window.capacity t.window.pinned]) p := ⟨hv, hf, .inr rfl⟩
    exact hlacks.says
  | @failed t t' e' hv hf hr =>
    cases he
    obtain ⟨e', rfl⟩ := io_of_refill hr
    exact trivial
  | @again t t₁ t' r hv hf hr hs ih =>
    have hok := (ok_refill (t := { t with phase := .needsInput }) h).1
    rw [hr] at hok
    exact ih hok he

theorem says_of_find (h : t.window.Ok) (hr : t.find p = (.error e, t')) : t'.Says p e := by
  rcases find_cases h p with ⟨-, hf⟩ | ⟨-, e', t₁, hfill, hf⟩ | ⟨t₁, hfill, hs⟩
  · rw [hf] at hr
    cases hr
    exact trivial
  · rw [hf] at hr
    cases hr
    obtain ⟨e', rfl⟩ := io_of_fill hfill
    exact trivial
  · rw [hr] at hs
    rcases hfill with ⟨-, hfill⟩ | ⟨-, rfl⟩
    · have hok := (ok_fill h).1
      rw [hfill] at hok
      exact hs.says hok rfl
    · exact hs.says h rfl

/-- What the error of a request says is true. -/
theorem says_of_rawNext (h : t.window.Ok) (hr : t.rawNext p = (.error e, t')) : t'.Says p e := by
  rcases rawNext_cases t p with ⟨e', t₁, hf, hr'⟩ | ⟨stop, t₁, e', hf, htake, hr'⟩ |
    ⟨stop, t₁, token, w, hf, -, hr'⟩ <;> rw [hr'] at hr <;> cases hr
  · exact says_of_find h hf
  · unfold Window.take at htake
    split at htake <;> cases htake
    exact trivial

/-! ### Asking again -/

/-- While there is no room the request fails, and nothing is read. -/
theorem Lacks.rawNext_eq (hl : t.Lacks p) (h : t.window.Ok) :
    (t.rawNext p).1 = .error t.fullError ∧ (t.rawNext p).2.source = t.source ∧
      (t.rawNext p).2.window = t.window := by
  rw [rawNext_of_find_error ((Settles.full hl.wantsMore hl.isFull).find_eq h hl.isOpen)]
  exact ⟨rfl, rfl, rfl⟩

/-- Without marks the window is not full of what they pin. -/
theorem rawNext_ne_windowFull (h : t.window.Ok) (hm : t.window.marks = []) (p : Pattern)
    (n k : Nat) : (t.rawNext p).1 ≠ .error (.windowFull n k) := by
  intro he
  have hmarks := (sameMarks_rawNext h p).2.marks_eq.trans hm
  obtain ⟨-, -, hk, hpos⟩ := says_of_rawNext h (Prod.ext he rfl)
  rw [Window.pinned_of_marks_eq_nil hmarks] at hk
  exact absurd hk (Nat.ne_of_gt hpos)

/-! ### The end of the input -/

/-- The tokenizer takes the input to have ended only if its source has told so. -/
def Hears (t : Tokenizer (Logged σ)) : Prop :=
  t.window.Ok ∧ (t.exhausted = true → ∃ room, .read room .finished ∈ t.source.calls)

theorem Hears.read {t : Tokenizer (Logged σ)} (h : t.Hears) : t.read.2.Hears := by
  refine ⟨(ok_read h.1).1, fun he => ?_⟩
  rcases read_cases t with ⟨bytes, count, l, hs, ht⟩ | ⟨l, hs, ht⟩ | ⟨e, l, hs, ht⟩ <;>
    have hl := Logged.calls_read hs <;> rw [ht] at he ⊢
  · obtain ⟨room, hmem⟩ := h.2 he
    exact ⟨room, hl ▸ List.mem_append_left _ hmem⟩
  · exact ⟨t.window.room, hl ▸ List.mem_append_right _ List.mem_cons_self⟩
  · obtain ⟨room, hmem⟩ := h.2 he
    exact ⟨room, hl ▸ List.mem_append_left _ hmem⟩

theorem upheld_hears : Upheld fun t : Tokenizer (Logged σ) => t.Hears where
  ok h := h.1
  aside h hw hs he _ := by
    refine ⟨hw ▸ h.1, fun hyes => ?_⟩
    rw [hs]
    exact h.2 (he ▸ hyes)
  place h hok _ := ⟨hok, h.2⟩
  fill {t} h _ := by
    have hread : (t.note [.initialFill t.window.capacity]).read.2.Hears := Hears.read h
    unfold fill
    rcases hr : (t.note [.initialFill t.window.capacity]).read with ⟨e | _, t'⟩ <;>
      rw [hr] at hread
    · exact hread
    · exact hread
  refill {t} h _ _ _ := Hears.read (t := t.compacted) ⟨h.1.compact, h.2⟩

theorem Hears.close {t : Tokenizer (Logged σ)} (h : t.Hears) : t.close.2.Hears := by
  rcases close_cases t with ⟨-, hc⟩ | ⟨-, error, l, result, events, hs, hc⟩ <;> rw [hc]
  · exact h
  · refine ⟨h.1, fun he => ?_⟩
    obtain ⟨room, hmem⟩ := h.2 he
    exact ⟨room, Logged.calls_close hs ▸ List.mem_append_left _ hmem⟩

/-- **The errors of a request are true.**  Let a client do whatever it likes with a fresh tokenizer, with
any marks at hand, and then make a request for a token.  With a log of what the source is asked, the
tokenizer does what it does without.

* A mismatch is told only if there are bytes that are not consumed; that the input has ended, only if
  there are none and the source has told its end.
* That a token exceeds the buffer is told only if no mark is before the position and the bytes that are
  not consumed fill the window.  The request then fails in the same way again, and nothing is read.
* That the window is full with `k` bytes pinned is told only if a mark is `k` bytes before the position
  and those and the bytes that are not consumed fill the window.  When the marks are given up, the request
  does not fail in this way again. -/
theorem errors_tell_the_truth {t : Tokenizer σ} {s : σ} (ht : t.Fresh s) (marks : List Mark)
    (ops : List Operation) (p : Pattern) :
    let c := Client.performAll ⟨t.log, marks⟩ ops
    let result := (c.respondent.rawNext p).1
    let u := (c.respondent.rawNext p).2
    c.map Logged.source = Client.performAll ⟨t, marks⟩ ops ∧
      (∀ q, result = .error (.inputMismatch q) → q = p.source ∧ u.window.unconsumed ≠ []) ∧
      (result = .error (.noSuchElement .exhausted) →
        u.window.unconsumed = [] ∧ ∃ room, .read room .finished ∈ u.source.calls) ∧
      (∀ n, result = .error (.noSuchElement (.exceedsBuffer n)) →
        (n = u.window.capacity ∧ u.window.unconsumed.length = n ∧
          ∀ m ∈ u.window.marks, u.position ≤ m.offset) ∧
        (u.rawNext p).1 = result ∧ (u.rawNext p).2.source = u.source) ∧
      ∀ n k, result = .error (.windowFull n k) →
        (n = u.window.capacity ∧ k + u.window.unconsumed.length = n ∧ 0 < k ∧
          ∃ m ∈ u.window.marks, m.offset + k = u.position) ∧
        ∀ n' k', (u.commit.rawNext p).1 ≠ .error (.windowFull n' k') := by
  intro c result u
  have hsame : c.map Logged.source = Client.performAll ⟨t, marks⟩ ops :=
    (Client.performAll_map Logged.mimics ⟨t.log, marks⟩ ops).symm
  have hstart : t.log.Hears := by
    refine ⟨ht.ok, fun he => ?_⟩
    rw [show t.log.exhausted = t.exhausted from rfl, ht.idle.2.1] at he
    cases he
  have hears : c.respondent.Hears :=
    upheld_hears.performAll Hears.close (c := ⟨t.log, marks⟩) hstart ops
  have hears' : u.Hears := upheld_hears.rawNext hears p
  have hsays : ∀ e, result = .error e → u.Says p e := fun e he =>
    says_of_rawNext hears.1 (Prod.ext he rfl)
  refine ⟨hsame, fun q he => hsays _ he, fun he => ?_, fun n he => ?_, fun n k he => ?_⟩
  · obtain ⟨hnil, hexhausted⟩ := hsays _ he
    exact ⟨hnil, hears'.2 hexhausted⟩
  · obtain ⟨hlacks, rfl, hpinned⟩ := hsays _ he
    have hfull := hears'.1.pinned_add_unconsumed hlacks.isFull
    obtain ⟨hanswer, hsource, -⟩ := hlacks.rawNext_eq hears'.1
    have herror : u.fullError = .noSuchElement (.exceedsBuffer u.window.capacity) := if_pos hpinned
    refine ⟨⟨rfl, by omega, hears'.1.position_le_of_pinned hpinned⟩, ?_, hsource⟩
    rw [hanswer, herror, he]
  · obtain ⟨hlacks, rfl, rfl, hpos⟩ := hsays _ he
    have hfull := hears'.1.pinned_add_unconsumed hlacks.isFull
    refine ⟨⟨rfl, hfull, hpos, hears'.1.exists_mark_of_pinned hpos⟩, ?_⟩
    have hwindow := window_commit u
    refine rawNext_ne_windowFull ?_ ?_ p
    · rw [hwindow]
      exact hears'.1.forget
    · rw [hwindow]
      rfl

/-- A tokenizer of three letters with room for two. -/
def crowded : Tokenizer Script :=
  ⟨⟨[0x61, 0x62, 0x63], [], none⟩, .empty 2, .uninitialized, false, .empty 1, none, []⟩

/-- Consume a letter, and be able to go back. -/
def keepLetter : List Operation := [.request .mark, takeLetter 'a']

/-- The other two letters. -/
def lastLetters : Pattern := ⟨"bc", .seq (.chars (.single 'b')) (.chars (.single 'c'))⟩

/-- The letter that was consumed leaves room for one of the other two, until it is given up. -/
theorem room_of_pinned_letter :
    crowded.Fresh crowded.source ∧
      ((crowded.log.after keepLetter).rawNext lastLetters).1 = .error (.windowFull 2 1) ∧
      1 + ((crowded.log.after keepLetter).rawNext lastLetters).2.window.unconsumed.length = 2 ∧
      (∀ n k, (((crowded.log.after keepLetter).rawNext lastLetters).2.commit.rawNext lastLetters).1 ≠
        .error (.windowFull n k)) ∧
      (((crowded.log.after keepLetter).rawNext lastLetters).2.commit.rawNext lastLetters).1 =
        .ok "bc" := by
  have hfresh : crowded.Fresh crowded.source := .inr ⟨⟨2, 1, none⟩, rfl⟩
  have hfails : ((crowded.log.after keepLetter).rawNext lastLetters).1 =
      .error (.windowFull 2 1) := by decide +kernel
  have hafter : (Client.performAll ⟨crowded.log, []⟩ keepLetter).respondent =
      crowded.log.after keepLetter := rfl
  have htruth := errors_tell_the_truth hfresh [] keepLetter lastLetters
  simp only [hafter] at htruth
  obtain ⟨-, -, -, -, hfull⟩ := htruth
  obtain ⟨⟨-, hlength, -⟩, hcommit⟩ := hfull 2 1 hfails
  exact ⟨hfresh, hfails, hlength, hcommit, by decide +kernel⟩

end Tokenizer

end StreamParser
