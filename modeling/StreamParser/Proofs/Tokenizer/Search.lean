import StreamParser.Proofs.Pattern.Streamable
import StreamParser.Proofs.Tokenizer.Window
import StreamParser.Tokenizer

/-!
# How a request is answered

`Tokenizer.search` judges a request again after each read, with a bound on the number of times.

* `Settles p t r t'` is the same without a bound: from `t` the request for `p` comes to the answer
  `r`, with `t'` after it.  `settles_search` says that the bound is never reached.
* `samePlace_find`, `samePlace_of_rawNext_error`: until a request consumes its token it changes
  neither the position nor the marks, whatever happens on the way.
-/

namespace StreamParser

namespace Tokenizer

variable {σ : Type}

@[simp] theorem note_window (t : Tokenizer σ) (l : List Event) : (t.note l).window = t.window := rfl

theorem note_source (t : Tokenizer σ) (l : List Event) : (t.note l).source = t.source := rfl

/-- No mark is set or given up, and the configuration is the same. -/
structure SameMarks (t t' : Tokenizer σ) : Prop where
  marks_eq : t'.window.marks = t.window.marks
  nextMark_eq : t'.window.nextMark = t.window.nextMark
  capacity_eq : t'.window.capacity = t.window.capacity
  cache_eq : t'.cache = t.cache
  skip_eq : t'.skip = t.skip

/-- Nothing is consumed or given back either. -/
structure SamePlace (t t' : Tokenizer σ) : Prop extends SameMarks t t' where
  position_eq : t'.position = t.position

theorem SameMarks.trans {t t' t'' : Tokenizer σ} (h : SameMarks t t') (h' : SameMarks t' t'') :
    SameMarks t t'' where
  marks_eq := h'.marks_eq.trans h.marks_eq
  nextMark_eq := h'.nextMark_eq.trans h.nextMark_eq
  capacity_eq := h'.capacity_eq.trans h.capacity_eq
  cache_eq := h'.cache_eq.trans h.cache_eq
  skip_eq := h'.skip_eq.trans h.skip_eq

theorem SamePlace.refl (t : Tokenizer σ) : SamePlace t t := ⟨⟨rfl, rfl, rfl, rfl, rfl⟩, rfl⟩

theorem SamePlace.trans {t t' t'' : Tokenizer σ} (h : SamePlace t t') (h' : SamePlace t' t'') :
    SamePlace t t'' :=
  ⟨h.toSameMarks.trans h'.toSameMarks, h'.position_eq.trans h.position_eq⟩

/-- What a tokenizer is doing, what it has told and where its bytes come from is not its place. -/
theorem SamePlace.of_eq {t t' : Tokenizer σ} (hw : t'.window = t.window) (hc : t'.cache = t.cache)
    (hk : t'.skip = t.skip) : SamePlace t t' := by
  refine ⟨⟨?_, ?_, ?_, hc, hk⟩, ?_⟩
  · rw [hw]
  · rw [hw]
  · rw [hw]
  · unfold position
    rw [hw]

/-- To go back to a mark keeps the window well formed, whatever the mark. -/
theorem ok_reset {t : Tokenizer σ} (h : t.window.Ok) (m : Mark) : (t.reset m).2.window.Ok := by
  unfold reset
  split
  · rcases hr : t.window.reset m.offset with e | w
    · exact h
    · exact h.reset hr
  · exact h

/-- More bytes are wanted only as long as the source has not ended. -/
theorem exhausted_of_wantsMore {t : Tokenizer σ} {p : Pattern} (h : t.verdict p = .wantsMore) :
    t.exhausted = false := by
  rw [← Bool.not_eq_true]
  intro he
  unfold verdict at h
  rw [he] at h
  split at h
  · cases h
  · cases h
  · exact Pattern.matchAt_ne_needsInput _ _ _ ‹_›
  · simp only [if_true] at h
    split at h <;> cases h

/-- A token that is found matches. -/
theorem matchAt_of_found {t : Tokenizer σ} {p : Pattern} {stop : Nat}
    (hv : t.verdict p = .found stop) :
    p.matchAt t.window.filled t.window.cursor t.exhausted = .ok (.matched stop) := by
  unfold verdict at hv
  split at hv
  · cases hv
  · rename_i hm
    cases hv
    exact hm
  · cases hv
  · split at hv
    · cases hv
    · split at hv <;> cases hv

/-- A token that is found ends in the window. -/
theorem stop_le_of_found {t : Tokenizer σ} (h : t.window.Ok) {p : Pattern} {stop : Nat}
    (hv : t.verdict p = .found stop) : stop ≤ t.window.limit :=
  (Pattern.matchAt_le h.cursor_le (matchAt_of_found hv)).2

variable [Source σ]

/-! ### Reading -/

/-- What one read does. -/
theorem read_cases (t : Tokenizer σ) :
    (∃ bytes count s, Source.read t.source t.window.room = (.read bytes count, s) ∧
        t.read = (.ok (), { t with source := s, window := t.window.receive bytes count })) ∨
      (∃ s, Source.read t.source t.window.room = (.finished, s) ∧
        t.read = (.ok (), { t with source := s, exhausted := true }.note
          [.endOfInput t.position])) ∨
      ∃ e s, Source.read t.source t.window.room = (.failed e, s) ∧
        t.read = (.error (.io e), { t with source := s }) := by
  unfold read
  rcases hr : Source.read t.source t.window.room with ⟨reply, s⟩
  cases reply with
  | read bytes count => exact .inl ⟨bytes, count, s, rfl, rfl⟩
  | finished => exact .inr (.inl ⟨s, rfl, rfl⟩)
  | failed e => exact .inr (.inr ⟨e, s, rfl, rfl⟩)

/-- A read fails only because the source does. -/
theorem io_of_read {t t' : Tokenizer σ} {e : TokenError} (h : t.read = (.error e, t')) :
    ∃ e', e = .io e' := by
  rcases read_cases t with ⟨bytes, count, s, -, hr⟩ | ⟨s, -, hr⟩ | ⟨e', s, -, hr⟩ <;>
    rw [hr] at h <;> cases h
  exact ⟨e', rfl⟩

theorem io_of_fill {t t' : Tokenizer σ} {e : TokenError} (h : t.fill = (.error e, t')) :
    ∃ e', e = .io e' := by
  unfold fill at h
  rcases hr : (t.note [.initialFill t.window.capacity]).read with ⟨e' | _, t₁⟩ <;> rw [hr] at h <;>
    cases h
  exact io_of_read hr

theorem ok_read {t : Tokenizer σ} (h : t.window.Ok) :
    t.read.2.window.Ok ∧ SamePlace t t.read.2 := by
  rcases read_cases t with ⟨bytes, count, s, -, hr⟩ | ⟨s, -, hr⟩ | ⟨e, s, -, hr⟩
  · rw [hr]
    exact ⟨h.receive bytes count, ⟨rfl, rfl, rfl, rfl, rfl⟩, rfl⟩
  · rw [hr]
    exact ⟨h, .of_eq rfl rfl rfl⟩
  · rw [hr]
    exact ⟨h, .of_eq rfl rfl rfl⟩

/-- The tokenizer when it has made room for a read. -/
def compacted (t : Tokenizer σ) : Tokenizer σ :=
  { t with window := t.window.compact }.note [.refilling t.window.retained t.window.compact.limit]

theorem refill_eq (t : Tokenizer σ) : t.refill = t.compacted.read := rfl

theorem io_of_refill {t t' : Tokenizer σ} {e : TokenError} (h : t.refill = (.error e, t')) :
    ∃ e', e = .io e' := io_of_read (t := t.compacted) h

theorem ok_refill {t : Tokenizer σ} (h : t.window.Ok) :
    t.refill.2.window.Ok ∧ SamePlace t t.refill.2 := by
  have hread := ok_read (t := t.compacted) h.compact
  have hcompact : SamePlace t t.compacted :=
    ⟨⟨rfl, rfl, rfl, rfl, rfl⟩, Window.position_compact _⟩
  exact ⟨hread.1, hcompact.trans hread.2⟩

theorem ok_fill {t : Tokenizer σ} (h : t.window.Ok) :
    t.fill.2.window.Ok ∧ SamePlace t t.fill.2 := by
  have hread := ok_read (t := t.note [.initialFill t.window.capacity]) h
  have hnote : SamePlace t (t.note [.initialFill t.window.capacity]) := .of_eq rfl rfl rfl
  unfold fill
  rcases hr : (t.note [.initialFill t.window.capacity]).read with ⟨_ | _, t'⟩
  · rw [hr] at hread
    exact ⟨hread.1, hnote.trans hread.2⟩
  · rw [hr] at hread
    exact ⟨hread.1, (hnote.trans hread.2).trans (.of_eq rfl rfl rfl)⟩

/-! ### Judging again and again -/

/-- From a tokenizer a request for `p` comes to an answer and a tokenizer after it. -/
inductive Settles (p : Pattern) :
    Tokenizer σ → Except TokenError Nat → Tokenizer σ → Prop
  | found {t : Tokenizer σ} {stop : Nat} (hv : t.verdict p = .found stop) :
    Settles p t (.ok stop) { t with phase := .ready }
  | absent {t : Tokenizer σ} {e : TokenError} (hv : t.verdict p = .absent e) :
    Settles p t (.error e) { t with phase := .ready }
  | stuck {t : Tokenizer σ} {e : PatternError} (hv : t.verdict p = .stuck e) :
    Settles p t (.error (.pattern e)) t
  | full {t : Tokenizer σ} (hv : t.verdict p = .wantsMore) (hf : t.window.isFull = true) :
    Settles p t (.error t.fullError) ({ t with phase := .needsInput }.note
      [.noRoom p.source t.window.capacity t.window.pinned])
  | failed {t t' : Tokenizer σ} {e : TokenError} (hv : t.verdict p = .wantsMore)
    (hf : t.window.isFull = false) (hr : { t with phase := .needsInput }.refill = (.error e, t')) :
    Settles p t (.error e) t'
  | again {t t' t'' : Tokenizer σ} {r : Except TokenError Nat} (hv : t.verdict p = .wantsMore)
    (hf : t.window.isFull = false) (hr : { t with phase := .needsInput }.refill = (.ok (), t'))
    (h : Settles p t' r t'') : Settles p t r t''

/-- A bound on the number of reads that a request can ask for: the bytes that there is room for, the
reads without bytes, and the one that finds the end of the input. -/
def want (t : Tokenizer σ) : Nat :=
  t.window.capacity - (t.window.limit - t.window.retained) + Source.patience t.source +
    if t.exhausted then 0 else 1

theorem want_lt_effort (t : Tokenizer σ) : t.want < t.effort := by
  unfold want effort
  split <;> omega

/-- When all that is in the window has to be kept, the bytes that there is room for are those that
the window has room for. -/
theorem want_of_retained {t : Tokenizer σ} (hr : t.window.retained = 0) :
    t.want = t.window.room + Source.patience t.source + if t.exhausted then 0 else 1 := by
  unfold want
  rw [hr]
  rfl

/-- Making room is already counted with. -/
theorem want_compacted {t : Tokenizer σ} (h : t.window.Ok) : t.compacted.want = t.want := by
  have hretained : t.compacted.window.retained = 0 := h.retained_compact
  rw [want_of_retained hretained]
  unfold want
  rw [← Window.limit_compact]
  rfl

/-- Each read into a window in which all has to be kept uses up some of the bound. -/
theorem want_read {t t' : Tokenizer σ} (hretained : t.window.retained = 0)
    (hroom : 0 < t.window.room) (he : t.exhausted = false) (hr : t.read = (.ok (), t')) :
    t'.want < t.want := by
  have hpatience := Source.patience_read t.source t.window.room hroom
  have hwant := want_of_retained hretained
  rcases read_cases t with ⟨bytes, count, s, hs, hr'⟩ | ⟨s, hs, hr'⟩ | ⟨e, s, hs, hr'⟩ <;>
    rw [hr'] at hr <;> cases hr <;> simp only [hs] at hpatience
  · have hwant' := want_of_retained
      (t := { t with source := s, window := t.window.receive bytes count }) hretained
    have hlimit := Window.limit_receive t.window bytes count
    have hleft : (t.window.receive bytes count).room =
        t.window.capacity - (t.window.receive bytes count).limit := rfl
    have hroom' : t.window.room = t.window.capacity - t.window.limit := rfl
    rw [hwant', hwant]
    show (t.window.receive bytes count).room + Source.patience s +
      (if t.exhausted then 0 else 1) < _
    -- a read takes up room, or else patience
    rcases Nat.eq_zero_or_pos count with rfl | hcount
    · simp only [Reply.isEmptyRead, if_true] at hpatience
      omega
    · have : 0 < min count t.window.room := by omega
      omega
  · have hwant' := want_of_retained
      (t := { t with source := s, exhausted := true }.note [.endOfInput t.position]) hretained
    rw [hwant', hwant, he]
    show t.window.room + Source.patience s + 0 < t.window.room + Source.patience t.source + 1
    omega

/-- Each read that a request asks for uses up some of the bound. -/
theorem want_refill {t t' : Tokenizer σ} (h : t.window.Ok) (hf : t.window.isFull = false)
    (he : t.exhausted = false) (hr : t.refill = (.ok (), t')) : t'.want < t.want := by
  rw [← want_compacted h]
  exact want_read (t := t.compacted) h.retained_compact (h.room_compact_pos hf) he hr

/-- The bound on the number of times that a request is judged is never reached. -/
theorem settles_search {p : Pattern} {n : Nat} {t : Tokenizer σ} (h : t.window.Ok)
    (hn : t.want < n) : Settles p t (search p n t).1 (search p n t).2 := by
  induction n generalizing t with
  | zero => exact absurd hn (Nat.not_lt_zero _)
  | succ n ih =>
    unfold search
    cases hv : t.verdict p with
    | found stop => exact .found hv
    | absent e => exact .absent hv
    | stuck e => exact .stuck hv
    | wantsMore =>
      simp only
      by_cases hf : t.window.isFull = true
      · rw [if_pos hf]
        exact .full hv hf
      · rw [if_neg hf]
        rw [Bool.not_eq_true] at hf
        rcases hr : ({ t with phase := .needsInput } : Tokenizer σ).refill with ⟨_ | _, t'⟩
        · exact .failed hv hf hr
        · have hok : t'.window.Ok := by
            have := (ok_refill (t := { t with phase := .needsInput }) h).1
            rwa [hr] at this
          have hlt : t'.want < t.want :=
            want_refill (t := { t with phase := .needsInput }) h hf (exhausted_of_wantsMore hv) hr
          exact .again hv hf hr (ih hok (by omega))

/-- So the search comes to the answer to which the request is settled. -/
theorem Settles.search_eq {p : Pattern} {t t' : Tokenizer σ} {r : Except TokenError Nat}
    (hs : Settles p t r t') (h : t.window.Ok) {n : Nat} (hn : t.want < n) :
    search p n t = (r, t') := by
  induction hs generalizing n with
  | found hv =>
    obtain ⟨n, rfl⟩ := Nat.exists_eq_add_one_of_ne_zero (Nat.ne_zero_of_lt hn)
    simp only [search, hv]
  | absent hv =>
    obtain ⟨n, rfl⟩ := Nat.exists_eq_add_one_of_ne_zero (Nat.ne_zero_of_lt hn)
    simp only [search, hv]
  | stuck hv =>
    obtain ⟨n, rfl⟩ := Nat.exists_eq_add_one_of_ne_zero (Nat.ne_zero_of_lt hn)
    simp only [search, hv]
  | full hv hf =>
    obtain ⟨n, rfl⟩ := Nat.exists_eq_add_one_of_ne_zero (Nat.ne_zero_of_lt hn)
    simp only [search, hv, if_pos hf]
    rfl
  | failed hv hf hr =>
    obtain ⟨n, rfl⟩ := Nat.exists_eq_add_one_of_ne_zero (Nat.ne_zero_of_lt hn)
    simp only [search, hv, hf, Bool.false_eq_true, if_false, hr]
  | @again t t' t'' r hv hf hr hs ih =>
    obtain ⟨n, rfl⟩ := Nat.exists_eq_add_one_of_ne_zero (Nat.ne_zero_of_lt hn)
    have hok := (ok_refill (t := { t with phase := .needsInput }) h).1
    have hlt := want_refill (t := { t with phase := .needsInput }) h hf (exhausted_of_wantsMore hv) hr
    rw [hr] at hok
    simp only [search, hv, hf, Bool.false_eq_true, if_false, hr]
    exact ih hok (Nat.lt_of_lt_of_le hlt (Nat.le_of_lt_succ hn))

/-- While a request is settled, the position and the marks do not change; and a token that is found
ends in the window. -/
theorem Settles.samePlace {p : Pattern} {t t' : Tokenizer σ} {r : Except TokenError Nat}
    (hs : Settles p t r t') (h : t.window.Ok) :
    t'.window.Ok ∧ SamePlace t t' ∧ ∀ stop, r = .ok stop → stop ≤ t'.window.limit := by
  induction hs with
  | @found t stop hv =>
    refine ⟨h, .of_eq rfl rfl rfl, fun n hn => ?_⟩
    cases hn
    exact stop_le_of_found h hv
  | absent hv => exact ⟨h, .of_eq rfl rfl rfl, fun _ hn => by cases hn⟩
  | stuck hv => exact ⟨h, .refl _, fun _ hn => by cases hn⟩
  | full hv hf => exact ⟨h, .of_eq rfl rfl rfl, fun _ hn => by cases hn⟩
  | @failed t t' e hv hf hr =>
    have hre := ok_refill (t := { t with phase := .needsInput }) h
    rw [hr] at hre
    have hphase : SamePlace t { t with phase := .needsInput } := .of_eq rfl rfl rfl
    exact ⟨hre.1, hphase.trans hre.2, fun _ hn => by cases hn⟩
  | @again t t' t'' r hv hf hr hs ih =>
    have hre := ok_refill (t := { t with phase := .needsInput }) h
    rw [hr] at hre
    obtain ⟨hok, hsame, hstop⟩ := ih hre.1
    have hphase : SamePlace t { t with phase := .needsInput } := .of_eq rfl rfl rfl
    exact ⟨hok, hphase.trans (hre.2.trans hsame), hstop⟩

/-! ### Requests -/

/-- A request is refused, or fails at the first read, or is settled. -/
theorem find_cases {t : Tokenizer σ} (h : t.window.Ok) (p : Pattern) :
    (t.phase = .closed ∧ t.find p = (.error (.noSuchElement .closed), t)) ∨
      (t.phase = .uninitialized ∧ ∃ e t', t.fill = (.error e, t') ∧ t.find p = (.error e, t')) ∨
      ∃ t', (t.phase = .uninitialized ∧ t.fill = (.ok (), t') ∨
          (t.phase = .ready ∨ t.phase = .needsInput) ∧ t' = t) ∧
        Settles p t' (t.find p).1 (t.find p).2 := by
  unfold find
  cases hp : t.phase with
  | closed => exact .inl ⟨rfl, rfl⟩
  | uninitialized =>
    have hok := (ok_fill h).1
    rcases hf : t.fill with ⟨e | _, t'⟩
    · exact .inr (.inl ⟨rfl, e, t', rfl, rfl⟩)
    · rw [hf] at hok
      exact .inr (.inr ⟨t', .inl ⟨rfl, rfl⟩, settles_search hok (want_lt_effort t')⟩)
  | ready => exact .inr (.inr ⟨t, .inr ⟨.inl rfl, rfl⟩, settles_search h (want_lt_effort t)⟩)
  | needsInput => exact .inr (.inr ⟨t, .inr ⟨.inr rfl, rfl⟩, settles_search h (want_lt_effort t)⟩)

/-- To look for a token moves nothing, and a token that is found ends in the window. -/
theorem samePlace_find {t : Tokenizer σ} (h : t.window.Ok) (p : Pattern) :
    (t.find p).2.window.Ok ∧ SamePlace t (t.find p).2 ∧
      ∀ stop, (t.find p).1 = .ok stop → stop ≤ (t.find p).2.window.limit := by
  rcases find_cases h p with ⟨-, hf⟩ | ⟨-, e, t', hfill, hf⟩ | ⟨t', hfill | ⟨-, rfl⟩, hs⟩
  · rw [hf]
    exact ⟨h, .refl _, fun _ hn => by cases hn⟩
  · have hok := ok_fill h
    rw [hfill] at hok
    rw [hf]
    exact ⟨hok.1, hok.2, fun _ hn => by cases hn⟩
  · have hok := ok_fill h
    rw [hfill.2] at hok
    obtain ⟨hok', hsame, hstop⟩ := hs.samePlace hok.1
    exact ⟨hok', hok.2.trans hsame, hstop⟩
  · exact hs.samePlace h

/-- A request consumes the token that is found, or fails. -/
theorem rawNext_cases (t : Tokenizer σ) (p : Pattern) :
    (∃ e t', t.find p = (.error e, t') ∧ t.rawNext p = (.error e, t')) ∨
      (∃ stop t' e, t.find p = (.ok stop, t') ∧ t'.window.take stop = .error e ∧
        t.rawNext p = (.error e, t')) ∨
      ∃ stop t' token w, t.find p = (.ok stop, t') ∧ t'.window.take stop = .ok (token, w) ∧
        t.rawNext p = (.ok token, { t' with window := w }.note [.matched p.source token]) := by
  unfold rawNext
  rcases hf : t.find p with ⟨e | stop, t'⟩
  · exact .inl ⟨e, t', rfl, rfl⟩
  · rcases ht : t'.window.take stop with e | ⟨token, w⟩
    · exact .inr (.inl ⟨stop, t', e, rfl, ht, by simp only [ht]⟩)
    · exact .inr (.inr ⟨stop, t', token, w, rfl, ht, by simp only [ht]⟩)

theorem rawNext_eq_of_find {t u : Tokenizer σ} {p : Pattern}
    (h : t.find p = u.find p) : t.rawNext p = u.rawNext p := by
  unfold rawNext
  rw [h]

theorem rawNext_of_find_error {t t' : Tokenizer σ} {p : Pattern} {e : TokenError}
    (h : t.find p = (.error e, t')) :
    t.rawNext p = (.error e, t') := by
  unfold rawNext
  rw [h]

/-- A request that fails has consumed nothing. -/
theorem samePlace_of_rawNext_error {t t' : Tokenizer σ} (h : t.window.Ok) {p : Pattern}
    {e : TokenError} (hr : t.rawNext p = (.error e, t')) : t'.window.Ok ∧ SamePlace t t' := by
  have hfind := samePlace_find h p
  rcases rawNext_cases t p with ⟨e', t₁, hf, hr'⟩ | ⟨stop, t₁, e', hf, -, hr'⟩ |
    ⟨stop, t₁, token, w, hf, -, hr'⟩ <;> rw [hr'] at hr <;> cases hr <;> rw [hf] at hfind
  · exact ⟨hfind.1, hfind.2.1⟩
  · exact ⟨hfind.1, hfind.2.1⟩

/-- A request leaves the marks as they are. -/
theorem sameMarks_rawNext {t : Tokenizer σ} (h : t.window.Ok) (p : Pattern) :
    (t.rawNext p).2.window.Ok ∧ SameMarks t (t.rawNext p).2 := by
  obtain ⟨hok, hsame, hstop⟩ := samePlace_find h p
  rcases rawNext_cases t p with ⟨e, t', hf, hr⟩ | ⟨stop, t', e, hf, -, hr⟩ |
    ⟨stop, t', token, w, hf, htake, hr⟩ <;> rw [hf] at hok hsame hstop <;> rw [hr]
  · exact ⟨hok, hsame.toSameMarks⟩
  · exact ⟨hok, hsame.toSameMarks⟩
  · have hmarks : SameMarks t' ({ t' with window := w }.note [.matched p.source token]) := by
      rw [Window.eq_of_take htake]
      exact ⟨rfl, rfl, rfl, rfl, rfl⟩
    exact ⟨hok.take (hstop stop rfl) htake, hsame.toSameMarks.trans hmarks⟩

theorem skipAhead_of_none {t : Tokenizer σ} (h : t.skip = none) : t.skipAhead = (.ok (), t) := by
  unfold skipAhead
  rw [h]

/-- To skip does what the request for what is skipped does, or nothing. -/
theorem skipAhead_of_rawNext {P : Tokenizer σ → Prop} {t : Tokenizer σ} (h : P t)
    (hnext : ∀ p, P (t.rawNext p).2) : P t.skipAhead.2 := by
  unfold skipAhead
  cases t.skip with
  | none => exact h
  | some p =>
    have hnext := hnext p
    rcases hr : t.rawNext p with ⟨e | token, t'⟩ <;> rw [hr] at hnext
    · by_cases he : e.isRecoverable = true
      · simp only [hr, if_pos he]
        exact hnext
      · simp only [hr, if_neg he]
        exact hnext
    · simp only [hr]
      exact hnext

theorem sameMarks_skipAhead {t : Tokenizer σ} (h : t.window.Ok) : SameMarks t t.skipAhead.2 :=
  skipAhead_of_rawNext (SamePlace.refl t).toSameMarks fun p => (sameMarks_rawNext h p).2

end Tokenizer

end StreamParser
