import StreamParser.Proofs.Pattern.Language
import StreamParser.Proofs.Pattern.Streamable
import StreamParser.Proofs.Tokenizer.Reachable

/-!
# Why a request fails, and what is told meanwhile

* `TokenError.isShortage` are the errors of a window without room and of reads that fail.
  `Tokenizer.error_of_rawNext`: apart from those a request for a pattern that judges all bytes fails
  only because nothing matches, or because the tokenizer is closed.
* `Tokenizer.Notes q b t t'` says that from `t` to `t'` events were added, and that `b` tells whether
  a token of a pattern in `q` is among those that were consumed.  Only a request that succeeds
  consumes one (`notes_rawNext`).
-/

namespace StreamParser

/-- The request could not be answered for want of room, or because a read failed. -/
def TokenError.isShortage : TokenError → Bool
  | io _ => true
  | windowFull _ _ => true
  | noSuchElement (.exceedsBuffer _) => true
  | _ => false

/-- The event is that a token of a pattern in `q` was consumed. -/
def Event.consumes (q : String → Bool) : Event → Bool
  | matched pattern _ => q pattern
  | _ => false

namespace Tokenizer

variable {σ : Type}

theorem isShortage_fullError (t : Tokenizer σ) : t.fullError.isShortage = true := by
  unfold fullError
  split <;> rfl

/-- A request is only refused for what may be different later. -/
theorem isRecoverable_of_absent {t : Tokenizer σ} {p : Pattern} {e : TokenError}
    (h : t.verdict p = .absent e) : e.isRecoverable = true := by
  unfold verdict at h
  split at h
  · cases h
  · cases h
  · cases h
  · split at h
    · cases h
      rfl
    · split at h <;> cases h
      rfl

/-- A pattern that judges all bytes is not stuck. -/
theorem verdict_ne_stuck {t : Tokenizer σ} (h : t.window.Ok) {p : Pattern}
    (hp : p.asciiOnly = false) (e : PatternError) : t.verdict p ≠ .stuck e := by
  obtain ⟨st, hst⟩ := Pattern.exists_matchAt hp (w := t.window.filled) h.cursor_le t.exhausted
  unfold verdict
  rw [hst]
  cases st with
  | matched stop => exact Verdict.noConfusion
  | needsInput => exact Verdict.noConfusion
  | noMatch =>
    simp only
    split
    · exact Verdict.noConfusion
    · split <;> exact Verdict.noConfusion

/-- What is found is a text, and so can be consumed. -/
theorem exists_take_of_found {t : Tokenizer σ} (h : t.window.Ok) {p : Pattern} {stop : Nat}
    (hv : t.verdict p = .found stop) : ∃ token w, t.window.take stop = .ok (token, w) := by
  have hsome := Pattern.isSome_text?_of_matchAt h.cursor_le (matchAt_of_found hv)
  obtain ⟨text, htext⟩ := Option.isSome_iff_exists.1 hsome
  unfold Window.take
  rw [htext]
  exact ⟨_, _, rfl⟩

variable [Source σ]

/-! ### Errors -/

variable {t t' : Tokenizer σ} {e : TokenError}

theorem isShortage_of_refill (h : t.refill = (.error e, t')) : e.isShortage = true := by
  obtain ⟨e', rfl⟩ := io_of_refill h
  rfl

theorem isShortage_of_fill (h : t.fill = (.error e, t')) : e.isShortage = true := by
  obtain ⟨e', rfl⟩ := io_of_fill h
  rfl

/-- Why a request comes to no token. -/
theorem Settles.error_cases {p : Pattern} (hp : p.asciiOnly = false) {r : Except TokenError Nat}
    (hs : Settles p t r t') (h : t.window.Ok) {e : TokenError} (he : r = .error e) :
    e.isRecoverable = true ∨ e.isShortage = true := by
  induction hs with
  | found hv => cases he
  | absent hv =>
    cases he
    exact .inl (isRecoverable_of_absent hv)
  | stuck hv => exact absurd hv (verdict_ne_stuck h hp _)
  | full hv hf =>
    cases he
    exact .inr (isShortage_fullError _)
  | failed hv hf hr =>
    cases he
    exact .inr (isShortage_of_refill hr)
  | @again t t' t'' r hv hf hr hs ih =>
    have hrefill := (ok_refill (t := { t with phase := .needsInput }) h).1
    rw [hr] at hrefill
    exact ih hrefill he

theorem error_of_find {p : Pattern} (hp : p.asciiOnly = false) (h : t.window.Ok)
    (he : (t.find p).1 = .error e) :
    e.isRecoverable = true ∨ e.isShortage = true ∨ e = .noSuchElement .closed := by
  rcases find_cases h p with ⟨-, hf⟩ | ⟨-, e', t', hfill, hf⟩ | ⟨t', hfill | ⟨-, rfl⟩, hs⟩
  · rw [hf] at he
    cases he
    exact .inr (.inr rfl)
  · rw [hf] at he
    cases he
    exact .inr (.inl (isShortage_of_fill hfill))
  · have hok := (ok_fill h).1
    rw [hfill.2] at hok
    exact (hs.error_cases hp hok he).imp id .inl
  · exact (hs.error_cases hp h he).imp id .inl

/-- Why a request consumes no token. -/
theorem error_of_rawNext {p : Pattern} (hp : p.asciiOnly = false) (h : t.window.Ok)
    (he : (t.rawNext p).1 = .error e) :
    e.isRecoverable = true ∨ e.isShortage = true ∨ e = .noSuchElement .closed := by
  have hfind := samePlace_find h p
  rcases rawNext_cases t p with ⟨e', t', hf, hr⟩ | ⟨stop, t', e', hf, htake, hr⟩ |
    ⟨stop, t', token, w, hf, -, hr⟩ <;> rw [hr] at he <;> cases he
  · exact error_of_find hp h (congrArg Prod.fst hf)
  · rw [hf] at hfind
    obtain ⟨token, w, htake'⟩ := exists_take_of_found hfind.1 (verdict_of_find hf)
    rw [htake] at htake'
    cases htake'

/-! ### Events -/

omit [Source σ] in
/-- From `t` to `t'` events were added; `b` tells whether a token of a pattern in `q` was consumed. -/
def Notes (q : String → Bool) (b : Bool) (t t' : Tokenizer σ) : Prop :=
  ∃ new, t'.events = new ++ t.events ∧ new.any (Event.consumes q) = b

section Notes

variable {q : String → Bool} {b b' : Bool} {t'' : Tokenizer σ}

omit [Source σ]

theorem Notes.of_eq (h : t'.events = t.events) : Notes q false t t' := ⟨[], h, rfl⟩

theorem Notes.trans (h : Notes q b t t') (h' : Notes q b' t' t'') : Notes q (b || b') t t'' := by
  obtain ⟨new, hnew, rfl⟩ := h
  obtain ⟨new', hnew', rfl⟩ := h'
  refine ⟨new' ++ new, ?_, ?_⟩
  · rw [hnew', hnew, List.append_assoc]
  · rw [List.any_append, Bool.or_comm]

/-- What happens without a token being consumed, before or after other things. -/
theorem Notes.quiet_trans (h : Notes q false t t') (h' : Notes q b t' t'') : Notes q b t t'' := by
  have := h.trans h'
  rwa [Bool.false_or] at this

theorem Notes.trans_quiet (h : Notes q b t t') (h' : Notes q false t' t'') : Notes q b t t'' := by
  have := h.trans h'
  rwa [Bool.or_false] at this

theorem notes_note (q : String → Bool) (t : Tokenizer σ) (event : Event) :
    Notes q (event.consumes q) t (t.note [event]) :=
  ⟨[event], rfl, by simp⟩

theorem notes_reset (q : String → Bool) (t : Tokenizer σ) (m : Mark) :
    Notes q false t (t.reset m).2 := by
  unfold reset
  split
  · split <;> exact .of_eq rfl
  · exact .of_eq rfl

theorem notes_commit (q : String → Bool) (t : Tokenizer σ) : Notes q false t t.commit := by
  unfold commit
  by_cases hdropped : t.window.marks.length = 0
  · simp only [if_pos hdropped]
    exact .of_eq rfl
  · simp only [if_neg hdropped]
    exact (notes_note q t _).trans_quiet (.of_eq rfl)

end Notes

theorem notes_read (q : String → Bool) (t : Tokenizer σ) : Notes q false t t.read.2 := by
  rcases read_cases t with ⟨bytes, count, s, -, hr⟩ | ⟨s, -, hr⟩ | ⟨e, s, -, hr⟩ <;> rw [hr]
  · exact .of_eq rfl
  · exact notes_note q { t with source := s, exhausted := true } _
  · exact .of_eq rfl

theorem notes_refill (q : String → Bool) (t : Tokenizer σ) : Notes q false t t.refill.2 :=
  (notes_note q { t with window := t.window.compact } _).quiet_trans (notes_read q t.compacted)

theorem notes_fill (q : String → Bool) (t : Tokenizer σ) : Notes q false t t.fill.2 := by
  have hread := (notes_note q t (.initialFill t.window.capacity)).quiet_trans (notes_read q _)
  unfold fill
  rcases hr : (t.note [.initialFill t.window.capacity]).read with ⟨e | _, t'⟩ <;> rw [hr] at hread
  · exact hread
  · exact hread.trans_quiet (.of_eq rfl)

theorem Settles.notes {p : Pattern} {r : Except TokenError Nat} (hs : Settles p t r t')
    (q : String → Bool) : Notes q false t t' := by
  induction hs with
  | found hv => exact .of_eq rfl
  | absent hv => exact .of_eq rfl
  | stuck hv => exact .of_eq rfl
  | @full t hv hf => exact notes_note q { t with phase := .needsInput } _
  | @failed t t' e hv hf hr =>
    have hrefill := notes_refill q ({ t with phase := .needsInput } : Tokenizer σ)
    rw [hr] at hrefill
    exact hrefill
  | @again t t' t'' r hv hf hr hs ih =>
    have hrefill := notes_refill q ({ t with phase := .needsInput } : Tokenizer σ)
    rw [hr] at hrefill
    exact hrefill.quiet_trans ih

theorem notes_find (h : t.window.Ok) (q : String → Bool) (p : Pattern) :
    Notes q false t (t.find p).2 := by
  rcases find_cases h p with ⟨-, hf⟩ | ⟨-, e, t', hfill, hf⟩ | ⟨t', hfill | ⟨-, rfl⟩, hs⟩
  · rw [hf]
    exact .of_eq rfl
  · have hnotes := notes_fill q t
    rw [hfill] at hnotes
    rw [hf]
    exact hnotes
  · have hnotes := notes_fill q t
    rw [hfill.2] at hnotes
    exact hnotes.quiet_trans (hs.notes q)
  · exact hs.notes q

/-- A request that succeeds consumes a token of its pattern, and one that fails consumes none. -/
theorem notes_rawNext (h : t.window.Ok) (q : String → Bool) (p : Pattern) :
    Notes q ((t.rawNext p).1.toBool && q p.source) t (t.rawNext p).2 := by
  have hfind := notes_find h q p
  rcases rawNext_cases t p with ⟨e, t', hf, hr⟩ | ⟨stop, t', e, hf, -, hr⟩ |
    ⟨stop, t', token, w, hf, -, hr⟩ <;> rw [hf] at hfind <;> rw [hr]
  · exact hfind
  · exact hfind
  · exact hfind.quiet_trans (notes_note q { t' with window := w } (.matched p.source token))

end Tokenizer

end StreamParser
