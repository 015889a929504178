import StreamParser.Proofs.Tokenizer.Bounds
import StreamParser.Proofs.Tokenizer.Upkeep

/-!
# What a tokenizer asks of its source

* A `Call` is what a source is asked, with its answer, and `Logged` is a source that writes down its
  calls.  `Tokenizer.log` is a tokenizer over such a source; it does what it would do without the log.
* `Orderly` says of calls that every read offers room, that nothing is read after the source has told
  its end or was closed, and that the source is closed at most once.
* `Tokenizer.Minds` is the invariant of a tokenizer whose calls are orderly: as long as it might read,
  it may.
* `Tokenizer.source_protocol`: whatever a client does with a fresh tokenizer, the calls are orderly; and
  a tokenizer that was closed refuses every request.
-/

namespace StreamParser

variable {σ : Type} [Source σ]

/-! ### Calls -/

/-- What a source is asked, and what it answers. -/
inductive Call
  | read (room : Nat) (reply : Reply)
  | close (error : Option IoError)
  deriving DecidableEq

namespace Call

/-- The source is closed. -/
def isClose : Call → Bool
  | read _ _ => false
  | close _ => true

/-- After the call nothing may be read any more: the source has told its end, or was closed. -/
def endsReading : Call → Bool
  | read _ .finished => true
  | read _ _ => false
  | close _ => true

end Call

/-- The calls of a source, the first one first, are in order. -/
structure Orderly (calls : List Call) : Prop where
  /-- Every read offers room. -/
  room_pos : ∀ room reply, .read room reply ∈ calls → 0 < room
  /-- Nothing is read after the end of the stream, and nothing after the source was closed. -/
  last_read : calls.Pairwise fun before after => before.endsReading = true → after.isClose = true
  /-- The source is closed at most once, also if that fails. -/
  close_once : calls.countP Call.isClose ≤ 1

namespace Orderly

variable {calls : List Call}

theorem nil : Orderly [] := ⟨fun _ _ h => absurd h List.not_mem_nil, .nil, Nat.zero_le 1⟩

/-- The source is read from once more. -/
theorem read (h : Orderly calls) {room : Nat} (hroom : 0 < room) (reply : Reply)
    (hreading : ∀ c ∈ calls, c.endsReading = false) : Orderly (calls ++ [.read room reply]) where
  room_pos n r hmem := by
    rcases List.mem_append.1 hmem with hmem | hmem
    · exact h.room_pos n r hmem
    · cases List.mem_singleton.1 hmem
      exact hroom
  last_read := by
    refine List.pairwise_append.2 ⟨h.last_read, List.pairwise_singleton _ _, ?_⟩
    intro before hbefore _ _ hends
    rw [hreading before hbefore] at hends
    cases hends
  close_once := by
    rw [List.countP_append]
    exact h.close_once

/-- The source is closed, for the first time. -/
theorem close (h : Orderly calls) (error : Option IoError)
    (hopen : ∀ c ∈ calls, c.isClose = false) : Orderly (calls ++ [.close error]) where
  room_pos n r hmem := by
    rcases List.mem_append.1 hmem with hmem | hmem
    · exact h.room_pos n r hmem
    · cases List.mem_singleton.1 hmem
  last_read := by
    refine List.pairwise_append.2 ⟨h.last_read, List.pairwise_singleton _ _, ?_⟩
    intro _ _ after hafter _
    rw [List.mem_singleton.1 hafter]
    rfl
  close_once := by
    have hnone : calls.countP Call.isClose = 0 := by
      rw [List.countP_eq_zero]
      intro c hc
      rw [hopen c hc]
      exact Bool.false_ne_true
    rw [List.countP_append, hnone]
    exact Nat.le_refl 1

end Orderly

/-! ### Sources with a log -/

/-- A source that writes down its calls. -/
structure Logged (σ : Type) where
  source : σ
  /-- The calls so far, the first one first. -/
  calls : List Call

instance : Source (Logged σ) where
  read l room :=
    let (reply, s) := Source.read l.source room
    (reply, ⟨s, l.calls ++ [.read room reply]⟩)
  close l :=
    let (e, s) := Source.close l.source
    (e, ⟨s, l.calls ++ [.close e]⟩)
  patience l := Source.patience l.source
  patience_read l room h := Source.patience_read l.source room h

/-- The log does not change the answers. -/
theorem Logged.mimics : Source.Mimics (Logged.source : Logged σ → σ) where
  read_eq _ _ := rfl
  close_eq _ := rfl
  patience_eq _ := rfl

theorem Logged.read_eq {s s' : σ} {room : Nat} {reply : Reply}
    (h : Source.read s room = (reply, s')) (calls : List Call) :
    Source.read (⟨s, calls⟩ : Logged σ) room = (reply, ⟨s', calls ++ [.read room reply]⟩) := by
  show ((Source.read s room).1, Logged.mk (Source.read s room).2
    (calls ++ [.read room (Source.read s room).1])) = _
  rw [h]

theorem Logged.calls_read {l l' : Logged σ} {room : Nat} {reply : Reply}
    (h : Source.read l room = (reply, l')) : l'.calls = l.calls ++ [.read room reply] := by
  cases h
  rfl

theorem Logged.calls_close {l l' : Logged σ} {error : Option IoError}
    (h : Source.close l = (error, l')) : l'.calls = l.calls ++ [.close error] := by
  cases h
  rfl

namespace Tokenizer

/-- The tokenizer, with a log of what its source is asked from now on. -/
def log (t : Tokenizer σ) : Tokenizer (Logged σ) := t.map (⟨·, []⟩)

/-! ### What a tokenizer minds -/

/-- The calls are in order, and a source that could be asked for more may be asked. -/
structure Heeds (t : Tokenizer (Logged σ)) : Prop where
  ok : t.window.Ok
  capacity_pos : 0 < t.window.capacity
  orderly : Orderly t.source.calls
  reading : t.phase ≠ .closed → t.exhausted = false → ∀ c ∈ t.source.calls, c.endsReading = false
  /-- The source was closed if the tokenizer was. -/
  closed_iff : t.phase = .closed ↔ ∃ e, .close e ∈ t.source.calls

/-- And if the tokenizer has not begun to read, its window is empty. -/
structure Minds (t : Tokenizer (Logged σ)) : Prop extends t.Heeds where
  untouched : t.phase = .uninitialized → t.window.limit = 0 ∧ t.exhausted = false

variable {t t' : Tokenizer (Logged σ)}

omit [Source σ] in
theorem Heeds.isClose_eq_false (h : t.Heeds) (hopen : t.phase ≠ .closed) :
    ∀ c ∈ t.source.calls, c.isClose = false := by
  intro c hc
  cases c with
  | read room reply => rfl
  | close e => exact absurd (h.closed_iff.2 ⟨e, hc⟩) hopen

omit [Source σ] in
/-- Cursor and marks do not matter, nor what the tokenizer is doing as long as it is neither closed nor
opened again. -/
theorem Heeds.of_eq (h : t.Heeds) (hok : t'.window.Ok)
    (hc : t'.window.capacity = t.window.capacity) (hs : t'.source = t.source)
    (he : t'.exhausted = t.exhausted) (hp : t'.phase = .closed ↔ t.phase = .closed) : t'.Heeds where
  ok := hok
  capacity_pos := hc ▸ h.capacity_pos
  orderly := hs ▸ h.orderly
  reading hopen hno := by
    rw [hs]
    exact h.reading (fun hclosed => hopen (hp.2 hclosed)) (he ▸ hno)
  closed_iff := by
    rw [hs]
    exact hp.trans h.closed_iff

omit [Source σ] in
theorem Heeds.minds (h : t.Heeds) (ho : t.IsOpen) : t.Minds :=
  ⟨h, fun hp => absurd hp ho.ne_uninitialized⟩

/-- One more read that is allowed. -/
theorem Heeds.read (h : t.Heeds) (hopen : t.phase ≠ .closed) (he : t.exhausted = false)
    (hr : 0 < t.window.room) : t.read.2.Heeds := by
  have hreading := h.reading hopen he
  -- what every answer of the source has in common
  have hcall : ∀ (reply : Reply) (l : Logged σ),
      l.calls = t.source.calls ++ [.read t.window.room reply] →
        Orderly l.calls ∧ (t.phase = .closed ↔ ∃ e, .close e ∈ l.calls) := by
    intro reply l hl
    rw [hl, h.closed_iff]
    exact ⟨h.orderly.read hr reply hreading, by simp⟩
  -- and what those have that do not end the stream
  have hgoes : ∀ (reply : Reply) (l : Logged σ),
      l.calls = t.source.calls ++ [.read t.window.room reply] →
        (Call.read t.window.room reply).endsReading = false →
          ∀ c ∈ l.calls, c.endsReading = false := by
    intro reply l hl hreply c hc
    rw [hl] at hc
    rcases List.mem_append.1 hc with hc | hc
    · exact hreading c hc
    · rw [List.mem_singleton.1 hc]
      exact hreply
  rcases read_cases t with ⟨bytes, count, l, hs, ht⟩ | ⟨l, hs, ht⟩ | ⟨e, l, hs, ht⟩ <;>
    have hl := Logged.calls_read hs <;> obtain ⟨horderly, hclosed⟩ := hcall _ l hl <;> rw [ht]
  · exact ⟨h.ok.receive bytes count, h.capacity_pos, horderly, fun _ _ => hgoes _ l hl rfl, hclosed⟩
  · exact ⟨h.ok, h.capacity_pos, horderly, fun _ hno => (nomatch hno), hclosed⟩
  · exact ⟨h.ok, h.capacity_pos, horderly, fun _ _ => hgoes _ l hl rfl, hclosed⟩

theorem Minds.fill (h : t.Minds) (hp : t.phase = .uninitialized) : t.fill.2.Minds := by
  have hopen : t.phase ≠ .closed := by
    rw [hp]
    exact Phase.noConfusion
  have hroom := Window.room_pos_of_limit h.capacity_pos (h.untouched hp).1
  have hnote : (t.note [.initialFill t.window.capacity]).Heeds :=
    h.toHeeds.of_eq h.ok rfl rfl rfl Iff.rfl
  have hread := hnote.read hopen (h.untouched hp).2 hroom
  have hready : ∀ t' : Tokenizer (Logged σ), t'.Heeds → t'.phase = t.phase →
      Minds { t' with phase := .ready } := by
    intro t' h' hphase
    have hstill : Phase.ready = .closed ↔ t'.phase = .closed := by
      rw [hphase, hp]
      exact ⟨Phase.noConfusion, Phase.noConfusion⟩
    exact (h'.of_eq h'.ok rfl rfl rfl hstill : Heeds { t' with phase := .ready }).minds (.inl rfl)
  unfold Tokenizer.fill
  rcases read_cases (t.note [.initialFill t.window.capacity]) with
    ⟨bytes, count, l, -, ht⟩ | ⟨l, -, ht⟩ | ⟨e, l, -, ht⟩ <;> rw [ht] at hread <;> rw [ht]
  · exact hready _ hread rfl
  · exact hready _ hread rfl
  · exact ⟨hread, h.untouched⟩

theorem Minds.refill (h : t.Minds) (ho : t.IsOpen) (he : t.exhausted = false)
    (hf : t.window.isFull = false) : t.refill.2.Minds := by
  have hcompacted : t.compacted.Heeds := h.toHeeds.of_eq h.ok.compact rfl rfl rfl Iff.rfl
  -- a window that is not full has room when it is compact
  have hread := hcompacted.read ho.ne_closed he (h.ok.room_compact_pos hf)
  rw [refill_eq]
  refine hread.minds ?_
  unfold IsOpen
  rw [phase_read]
  exact ho

/-- The source is closed when the tokenizer is closed for the first time. -/
theorem Minds.close (h : t.Minds) : t.close.2.Minds := by
  rcases close_cases t with ⟨-, hc⟩ | ⟨hp, error, l, result, events, hs, hc⟩ <;> rw [hc]
  · exact h
  · have hl := Logged.calls_close hs
    have horderly := h.orderly.close error (h.isClose_eq_false hp)
    rw [← hl] at horderly
    have hmem : .close error ∈ l.calls := by
      rw [hl]
      exact List.mem_append_right _ (List.mem_singleton.2 rfl)
    exact ⟨⟨h.ok, h.capacity_pos, horderly, fun hno => absurd rfl hno,
      iff_of_true rfl ⟨error, hmem⟩⟩, Phase.noConfusion⟩

/-- Whatever a tokenizer does for a request, the calls stay orderly. -/
theorem upheld_minds : Upheld fun t : Tokenizer (Logged σ) => t.Minds where
  ok h := h.ok
  aside {t t'} h hw hs he hp := by
    have hok : t'.window.Ok := hw ▸ h.ok
    have hc : t'.window.capacity = t.window.capacity := congrArg Window.capacity hw
    rcases hp with hp | ⟨ho, ho'⟩
    · refine ⟨h.toHeeds.of_eq hok hc hs he (by rw [hp]), fun hno => ?_⟩
      rw [hw, he]
      exact h.untouched (hp ▸ hno)
    · exact (h.toHeeds.of_eq hok hc hs he (iff_of_false ho'.ne_closed ho.ne_closed)).minds ho'
  place {t w} h hok hw := by
    refine ⟨h.toHeeds.of_eq hok hw.capacity_eq rfl rfl Iff.rfl, fun hp => ?_⟩
    show w.limit = 0 ∧ t.exhausted = false
    rw [hw.limit_eq]
    exact h.untouched hp
  fill h hp := h.fill hp
  refill h ho he hf := h.refill ho he hf

omit [Source σ] in
/-- Nothing was asked of the source of a fresh tokenizer. -/
theorem Fresh.minds {t : Tokenizer σ} {s : σ} (h : t.Fresh s) : t.log.Minds := by
  obtain ⟨hphase, hexhausted, hcapacity⟩ := h.idle
  refine ⟨⟨h.ok, hcapacity, .nil, fun _ _ _ hc => absurd hc List.not_mem_nil, ?_⟩, fun _ => ?_⟩
  · refine iff_of_false (fun hclosed => ?_) (fun ⟨_, hc⟩ => absurd hc List.not_mem_nil)
    rw [show t.log.phase = t.phase from rfl, hphase] at hclosed
    cases hclosed
  · refine ⟨?_, hexhausted⟩
    show t.window.limit = 0
    rw [h.window_eq]
    rfl

/-! ### Closed tokenizers -/

variable {u : Tokenizer σ}

/-- Whether the tokenizer is closed is not changed by a request. -/
theorem upheld_closed (b : Prop) :
    Upheld fun t : Tokenizer σ => t.window.Ok ∧ (t.phase = .closed ↔ b) where
  ok h := h.1
  aside {t t'} h hw hs he hp := by
    refine ⟨hw ▸ h.1, ?_⟩
    rcases hp with hp | ⟨ho, ho'⟩
    · rw [hp]
      exact h.2
    · exact (iff_of_false ho'.ne_closed ho.ne_closed).trans h.2
  place h hok hw := ⟨hok, h.2⟩
  fill {t} h hp := by
    refine ⟨(ok_fill h.1).1, Iff.trans (iff_of_false ?_ ?_) h.2⟩
    · rcases hf : t.fill.1 with e | _
      · rw [phase_fill_of_error hf, hp]
        exact Phase.noConfusion
      · rw [phase_fill hf]
        exact Phase.noConfusion
    · rw [hp]
      exact Phase.noConfusion
  refill h ho he hf := by
    rw [phase_refill]
    exact ⟨(ok_refill h.1).1, h.2⟩

/-- A tokenizer is closed if it was, or if the client has closed it, and stays so. -/
theorem phase_performAll {c : Client (Tokenizer σ)} (h : c.respondent.window.Ok)
    (ops : List Operation) :
    (c.performAll ops).respondent.phase = .closed ↔
      c.respondent.phase = .closed ∨ .close ∈ ops := by
  have hperform : ∀ (c : Client (Tokenizer σ)) (op : Operation), c.respondent.window.Ok →
      (c.perform op).respondent.window.Ok ∧
        ((c.perform op).respondent.phase = .closed ↔
          c.respondent.phase = .closed ∨ .close = op) := by
    intro c op h
    by_cases hop : op = .close
    · subst hop
      refine ⟨?_, iff_of_true (phase_close _) (.inr rfl)⟩
      show c.respondent.close.2.window.Ok
      rw [window_close]
      exact h
    · obtain ⟨hok, hphase⟩ := (upheld_closed (c.respondent.phase = .closed)).perform (c := c)
        ⟨h, Iff.rfl⟩ op fun hclose => absurd hclose hop
      exact ⟨hok, hphase.trans (or_iff_left fun hclose => hop hclose.symm).symm⟩
  induction ops generalizing c with
  | nil => simp
  | cons op ops ih =>
    obtain ⟨hok, hphase⟩ := hperform c op h
    rw [Client.performAll_cons, List.mem_cons, ← or_assoc, ← hphase]
    exact ih hok

omit [Source σ] in
/-- A regular expression that compiles is found in the cache or compiled. -/
theorem pattern_of_compile (u : Tokenizer σ) {regex : String} {p : Pattern}
    (hp : Pattern.compile regex = .ok p) :
    ∃ q v, u.pattern regex = (.ok q, v) ∧ v.window = u.window ∧ v.phase = u.phase := by
  unfold pattern PatternCache.get
  cases u.cache.find? regex with
  | some e => exact ⟨_, _, rfl, rfl, rfl⟩
  | none =>
    simp only [hp]
    exact ⟨_, _, rfl, rfl, rfl⟩

theorem find_of_closed (h : u.phase = .closed) (p : Pattern) :
    u.find p = (.error (.noSuchElement .closed), u) := by
  unfold find
  rw [h]

theorem rawNext_of_closed (h : u.phase = .closed) (p : Pattern) :
    u.rawNext p = (.error (.noSuchElement .closed), u) := by
  unfold rawNext
  rw [find_of_closed h]

/-- There may be nothing to skip; but what there is is refused. -/
theorem skipAhead_of_closed (h : u.phase = .closed) :
    u.skipAhead = (.ok (), u) ∨ u.skipAhead = (.error (.noSuchElement .closed), u) := by
  unfold skipAhead
  cases u.skip with
  | none => exact .inl rfl
  | some p =>
    simp only [rawNext_of_closed h]
    exact .inr rfl

theorem nextPattern_of_closed (h : u.phase = .closed) (p : Pattern) :
    u.nextPattern p = (.error (.noSuchElement .closed), u) := by
  unfold nextPattern
  rcases skipAhead_of_closed h with hs | hs <;> rw [hs]
  exact rawNext_of_closed h p

/-- A request was refused because the tokenizer is closed; it has not moved and is still closed. -/
def Refuses {α : Type} (u : Tokenizer σ) (x : Except TokenError α × Tokenizer σ) : Prop :=
  x.1 = .error (.noSuchElement .closed) ∧ x.2.position = u.position ∧ x.2.phase = .closed

theorem refuses_next (h : u.phase = .closed) {regex : String} {p : Pattern}
    (hp : Pattern.compile regex = .ok p) : u.Refuses (u.next regex) := by
  obtain ⟨q, v, hpattern, hwindow, hphase⟩ := pattern_of_compile u hp
  have hclosed := hphase.trans h
  unfold next
  rw [hpattern]
  simp only [nextPattern_of_closed hclosed]
  exact ⟨rfl, congrArg Window.position hwindow, hclosed⟩

theorem refuses_hasNext (h : u.phase = .closed) {regex : String} {p : Pattern}
    (hp : Pattern.compile regex = .ok p) : u.Refuses (u.hasNext regex) := by
  obtain ⟨q, v, hpattern, hwindow, hphase⟩ := pattern_of_compile u hp
  have hclosed := hphase.trans h
  have hposition : v.position = u.position := congrArg Window.position hwindow
  unfold hasNext
  rw [hpattern]
  rcases skipAhead_of_closed hclosed with hs | hs <;> simp only [hs]
  · rw [find_of_closed hclosed]
    exact ⟨rfl, hposition, hclosed⟩
  · exact ⟨rfl, hposition, hclosed⟩

/-- **The source protocol.**  Let a client do whatever it likes with a fresh tokenizer, with any marks
at hand, over any source.  With a log of what the source is asked, the tokenizer does what it does
without.

* No read offers an empty buffer, none follows after the source has told its end, and none after it
  was closed.  The source is closed at most once, whether that fails or not; and it is closed if and
  only if the client has closed the tokenizer.
* From then on the tokenizer is closed, and refuses every request for a token or a look at one without
  moving; of regular expressions, those that compile. -/
theorem source_protocol {t : Tokenizer σ} {s : σ} (ht : t.Fresh s) (marks : List Mark)
    (ops : List Operation) :
    let c := Client.performAll ⟨t, marks⟩ ops
    let logged := Client.performAll ⟨t.log, marks⟩ ops
    let u := c.respondent
    logged.map Logged.source = c ∧
      Orderly logged.respondent.source.calls ∧
      ((∃ e, .close e ∈ logged.respondent.source.calls) ↔ .close ∈ ops) ∧
      (u.phase = .closed ↔ .close ∈ ops) ∧
      (.close ∈ ops →
        (∀ p, u.Refuses (u.rawNext p)) ∧ (∀ p, u.Refuses (u.nextPattern p)) ∧
          ∀ regex p, Pattern.compile regex = .ok p →
            u.Refuses (u.next regex) ∧ u.Refuses (u.hasNext regex)) := by
  intro c logged u
  have hsame : logged.map Logged.source = c :=
    (Client.performAll_map Logged.mimics ⟨t.log, marks⟩ ops).symm
  have hminds : logged.respondent.Minds :=
    upheld_minds.performAll Minds.close (c := ⟨t.log, marks⟩) ht.minds ops
  have hphase : u.phase = .closed ↔ .close ∈ ops := by
    have hidle : t.phase ≠ .closed := by
      rw [ht.idle.1]
      exact Phase.noConfusion
    exact (phase_performAll (c := ⟨t, marks⟩) ht.ok ops).trans (or_iff_right hidle)
  have hlogged : logged.respondent.phase = u.phase :=
    congrArg (fun c : Client (Tokenizer σ) => c.respondent.phase) hsame
  refine ⟨hsame, hminds.orderly, ?_, hphase, fun hclose => ?_⟩
  · rw [← hminds.closed_iff, hlogged, hphase]
  · have hclosed := hphase.2 hclose
    refine ⟨fun p => ?_, fun p => ?_, fun regex p hp =>
      ⟨refuses_next hclosed hp, refuses_hasNext hclosed hp⟩⟩
    · rw [rawNext_of_closed hclosed]
      exact ⟨rfl, rfl, hclosed⟩
    · rw [nextPattern_of_closed hclosed]
      exact ⟨rfl, rfl, hclosed⟩

/-- A tokenizer of two letters with room for one, whose source does not like to be closed. -/
def reluctant : Tokenizer (Watched Script) :=
  ⟨.start ⟨[0x61, 0x62], [], none⟩ (some ⟨.other, "busy"⟩), .empty 1, .uninitialized, false, .empty 1,
    none, []⟩

/-- Consume two letters, look for a third one, close twice and ask again. -/
def closingTwice : List Operation :=
  [takeLetter 'a', takeLetter 'b', takeLetter 'c', .close, .close, takeLetter 'c']

/-- To close the source fails, and is not tried again. -/
theorem closed_source_rests :
    reluctant.Fresh reluctant.source ∧ .close ∈ closingTwice ∧
      (reluctant.log.after closingTwice).source.calls =
        [.read 1 (.read [0x61] 1), .read 1 (.read [0x62] 1), .read 1 .finished,
          .close (some ⟨.other, "busy"⟩)] ∧
      Orderly (reluctant.log.after closingTwice).source.calls ∧
      (reluctant.after closingTwice).Refuses
        ((reluctant.after closingTwice).rawNext ⟨"a", .chars (.single 'a')⟩) := by
  have hfresh : reluctant.Fresh reluctant.source := .inr ⟨⟨1, 1, none⟩, rfl⟩
  have hclose : Operation.close ∈ closingTwice := by simp [closingTwice]
  have hcalls : (reluctant.log.after closingTwice).source.calls =
      [.read 1 (.read [0x61] 1), .read 1 (.read [0x62] 1), .read 1 .finished,
        .close (some ⟨.other, "busy"⟩)] := by decide +kernel
  have hafter : ∀ {τ : Type} [Source τ] (t : Tokenizer τ),
      (Client.performAll ⟨t, []⟩ closingTwice).respondent = t.after closingTwice := fun _ => rfl
  have hprotocol := source_protocol hfresh [] closingTwice
  simp only [hafter] at hprotocol
  obtain ⟨-, horderly, -, -, hrefuses⟩ := hprotocol
  exact ⟨hfresh, hclose, hcalls, horderly, (hrefuses hclose).1 _⟩

end Tokenizer

end StreamParser
