import StreamParser.Proofs.Tokenizer.Upkeep

/-!
# Tokenizers of a stream whose reads may fail

* `Supplies s l` says that the source `s` hands out the bytes `l`, in reads of any sizes, and ends
  then.  A read may fail; nothing is lost by that, and it may be tried again.
* `Tokenizer.Follows t l` is the invariant of the tokenizers of such a source: the window holds the
  bytes of `l` that it should.  `Tokenizer.Attends t l` adds that nothing was read yet if the
  tokenizer takes itself to be new.
* `Attends.after`: whatever a client does, the tokenizer goes on to attend to the stream.
-/

namespace StreamParser

variable {σ : Type} [Source σ]

/-- A source that has the bytes `rest` to hand out may answer a read so, or fail; `next` is about what
it has to hand out after that. -/
def Reply.Supplies (room : Nat) (rest : List UInt8) (next : List UInt8 → Prop) : Reply → Prop
  | failed _ => next rest
  | reply => reply.Hands room rest next

/-- The source hands out `rest`, cut as it likes, and then ends.  A read that fails changes nothing
about what it has to hand out. -/
def Supplies (s : σ) (rest : List UInt8) : Prop :=
  ∃ Has : σ → List UInt8 → Prop, Has s rest ∧ ∀ s rest room, Has s rest → 0 < room →
    (Source.read s room).1.Supplies room rest (Has (Source.read s room).2)

theorem Supplies.read {s : σ} {rest : List UInt8} (h : Supplies s rest) {room : Nat}
    (hr : 0 < room) :
    (Source.read s room).1.Supplies room rest (Supplies (Source.read s room).2) := by
  obtain ⟨Has, hs, hread⟩ := h
  have := hread s rest room hs hr
  cases hreply : (Source.read s room).1 with
  | read bytes count =>
    rw [hreply] at this
    obtain ⟨hcount, hle, rest', hrest, hnext⟩ := this
    exact ⟨hcount, hle, rest', hrest, Has, hnext, hread⟩
  | finished =>
    rw [hreply] at this
    exact this
  | failed e =>
    rw [hreply] at this
    exact ⟨Has, this, hread⟩

/-- A source that never fails is one that may fail. -/
theorem Delivers.supplies {s : σ} {rest : List UInt8} (h : Delivers s rest) : Supplies s rest := by
  refine ⟨Delivers, h, fun s rest room hs hr => ?_⟩
  have := hs.read hr
  cases hreply : (Source.read s room).1 with
  | read bytes count =>
    rw [hreply] at this
    exact this
  | finished =>
    rw [hreply] at this
    exact this
  | failed e =>
    rw [hreply] at this
    exact this.elim

namespace Tokenizer

/-- What the tokenizer has in its window is a part of `l`, and what is not in the window yet is still
to come. -/
structure Follows (t : Tokenizer σ) (l : List UInt8) : Prop where
  ok : t.window.Ok
  capacity_pos : 0 < t.window.capacity
  le_length : t.window.discarded + t.window.limit ≤ l.length
  filled_eq : t.window.filled = (l.drop t.window.discarded).take t.window.limit
  /-- As long as the source is open and has not ended, it has the rest. -/
  supplies : t.phase ≠ .closed → t.exhausted = false →
    Supplies t.source (l.drop (t.window.discarded + t.window.limit))
  ended : t.exhausted = true → t.window.discarded + t.window.limit = l.length

/-- The tokenizer follows `l`, and if it has not begun to read, its window is empty. -/
structure Attends (t : Tokenizer σ) (l : List UInt8) : Prop extends t.Follows l where
  untouched : t.phase = .uninitialized → t.window.limit = 0 ∧ t.exhausted = false

variable {t t' : Tokenizer σ} {l : List UInt8}

/-- What the tokenizer skips and what it has told does not matter, nor what it is doing as long as it
is not opened again. -/
theorem Follows.of_eq (h : t.Follows l) (hw : t'.window = t.window) (hs : t'.source = t.source)
    (he : t'.exhausted = t.exhausted) (hp : t.phase = .closed → t'.phase = .closed) :
    t'.Follows l where
  ok := hw ▸ h.ok
  capacity_pos := hw ▸ h.capacity_pos
  le_length := hw ▸ h.le_length
  filled_eq := hw ▸ h.filled_eq
  supplies hopen hno := by
    rw [hw, hs]
    exact h.supplies (fun hc => hopen (hp hc)) (he ▸ hno)
  ended hyes := hw ▸ h.ended (he ▸ hyes)

theorem Attends.of_eq (h : t.Attends l) (hw : t'.window = t.window) (hs : t'.source = t.source)
    (he : t'.exhausted = t.exhausted) (hp : t'.phase = t.phase) : t'.Attends l where
  toFollows := h.toFollows.of_eq hw hs he fun hc => hp.trans hc
  untouched hno := by
    rw [hw, he]
    exact h.untouched (hp ▸ hno)

/-- Only the bytes of the window and its place in the stream matter, not the cursor and the
marks. -/
theorem Follows.withWindow (h : t.Follows l) {w : Window} (hok : w.Ok)
    (hf : w.filled = t.window.filled) (hd : w.discarded = t.window.discarded)
    (hc : w.capacity = t.window.capacity) : Follows { t with window := w } l := by
  have hl : w.limit = t.window.limit := congrArg List.length hf
  refine ⟨hok, ?_, ?_, ?_, fun hopen he => ?_, fun he => ?_⟩
  · show 0 < w.capacity
    rw [hc]
    exact h.capacity_pos
  · show w.discarded + w.limit ≤ l.length
    rw [hd, hl]
    exact h.le_length
  · show w.filled = (l.drop w.discarded).take w.limit
    rw [hf, hd, hl]
    exact h.filled_eq
  · show Supplies t.source (l.drop (w.discarded + w.limit))
    rw [hd, hl]
    exact h.supplies hopen he
  · show w.discarded + w.limit = l.length
    rw [hd, hl]
    exact h.ended he

theorem Attends.withWindow (h : t.Attends l) {w : Window} (hok : w.Ok)
    (hf : w.filled = t.window.filled) (hd : w.discarded = t.window.discarded)
    (hc : w.capacity = t.window.capacity) : Attends { t with window := w } l where
  toFollows := h.toFollows.withWindow hok hf hd hc
  untouched hp := by
    show w.filled.length = 0 ∧ t.exhausted = false
    rw [hf]
    exact h.untouched hp

/-! ### Reading -/

/-- A read takes up what comes next, or finds that nothing comes, or fails and changes nothing. -/
theorem Follows.read (h : t.Follows l) (hopen : t.phase ≠ .closed) (he : t.exhausted = false)
    (hr : 0 < t.window.room) : t.read.2.Follows l := by
  have hread := (h.supplies hopen he).read hr
  rcases read_cases t with ⟨bytes, count, s, hs, ht⟩ | ⟨s, hs, ht⟩ | ⟨e, s, hs, ht⟩ <;>
    rw [hs] at hread <;> rw [ht]
  · obtain ⟨rfl, hle, rest, hrest, hnext⟩ := hread
    have hfilled := Window.filled_receive hle
    have hlimit : (t.window.receive bytes bytes.length).limit = t.window.limit + bytes.length := by
      rw [Window.limit_receive, Nat.min_eq_left hle]
    have hlen := congrArg List.length hrest
    rw [List.length_drop, List.length_append] at hlen
    have hle' := h.le_length
    have hdrop : l.drop (t.window.discarded + (t.window.limit + bytes.length)) = rest := by
      rw [← Nat.add_assoc, ← List.drop_drop, hrest, List.drop_left]
    refine ⟨h.ok.receive bytes _, h.capacity_pos, ?_, ?_, fun _ _ => ?_, fun he' => ?_⟩
    · show t.window.discarded + (t.window.receive bytes bytes.length).limit ≤ l.length
      omega
    · show (t.window.receive bytes bytes.length).filled =
        (l.drop t.window.discarded).take (t.window.receive bytes bytes.length).limit
      have htake : (l.drop (t.window.discarded + t.window.limit)).take bytes.length = bytes := by
        rw [hrest, List.take_left]
      rw [hfilled, hlimit, List.take_add, List.drop_drop, htake, ← h.filled_eq]
    · show Supplies s
        (l.drop (t.window.discarded + (t.window.receive bytes bytes.length).limit))
      rw [hlimit, hdrop]
      exact hnext
    · rw [show t.exhausted = true from he'] at he
      cases he
  · have hlen := congrArg List.length (show l.drop _ = [] from hread)
    rw [List.length_drop, List.length_nil] at hlen
    have hle := h.le_length
    refine ⟨h.ok, h.capacity_pos, hle, h.filled_eq, fun _ he' => ?_, fun _ => ?_⟩
    · cases he'
    · show t.window.discarded + t.window.limit = l.length
      omega
  · exact ⟨h.ok, h.capacity_pos, h.le_length, h.filled_eq, fun _ _ => hread, h.ended⟩

theorem Follows.compacted (h : t.Follows l) : t.compacted.Follows l := by
  have hlimit := Window.limit_compact t.window
  have hdiscarded : t.window.compact.discarded = t.window.discarded + t.window.retained := rfl
  have hret := h.ok.retained_le_limit
  have hplace : t.window.compact.discarded + t.window.compact.limit =
      t.window.discarded + t.window.limit := by omega
  refine ⟨h.ok.compact, h.capacity_pos, ?_, ?_, fun hopen he => ?_, fun he => ?_⟩
  · show t.window.compact.discarded + t.window.compact.limit ≤ l.length
    rw [hplace]
    exact h.le_length
  · show t.window.filled.drop t.window.retained =
      (l.drop t.window.compact.discarded).take t.window.compact.limit
    rw [h.filled_eq, List.drop_take, List.drop_drop, hlimit, hdiscarded]
  · show Supplies t.source (l.drop (t.window.compact.discarded + t.window.compact.limit))
    rw [hplace]
    exact h.supplies hopen he
  · show t.window.compact.discarded + t.window.compact.limit = l.length
    rw [hplace]
    exact h.ended he

/-- A read into a window that is not full of bytes that have to be kept. -/
theorem Follows.refill (h : t.Follows l) (hopen : t.phase ≠ .closed) (he : t.exhausted = false)
    (hf : t.window.isFull = false) : t.refill.2.Follows l := by
  rw [refill_eq]
  exact h.compacted.read hopen he (h.ok.room_compact_pos hf)

/-- The first read. -/
theorem Attends.fill (h : t.Attends l) (hp : t.phase = .uninitialized) : t.fill.2.Attends l := by
  have hroom := Window.room_pos_of_limit h.capacity_pos (h.untouched hp).1
  have hopen : t.phase ≠ .closed := by
    rw [hp]
    exact Phase.noConfusion
  have hnote : (t.note [.initialFill t.window.capacity]).Follows l :=
    h.toFollows.of_eq rfl rfl rfl id
  have hread := hnote.read hopen (h.untouched hp).2 hroom
  unfold Tokenizer.fill
  rcases read_cases (t.note [.initialFill t.window.capacity]) with
    ⟨bytes, count, s, -, ht⟩ | ⟨s, -, ht⟩ | ⟨e, s, -, ht⟩ <;> rw [ht] at hread <;> rw [ht]
  · exact ⟨hread.of_eq rfl rfl rfl fun hc => absurd hc hopen, Phase.noConfusion⟩
  · exact ⟨hread.of_eq rfl rfl rfl fun hc => absurd hc hopen, Phase.noConfusion⟩
  · exact ⟨hread, h.untouched⟩

/-! ### Requests -/

theorem Follows.attends (h : t.Follows l) (ho : t.IsOpen) : t.Attends l :=
  ⟨h, fun hp => absurd hp ho.ne_uninitialized⟩

/-- How a request is answered: it is refused, fails at the first read, or is settled by a tokenizer
that follows the stream. -/
theorem Attends.find_cases (h : t.Attends l) (p : Pattern) :
    (t.phase = .closed ∧ t.find p = (.error (.noSuchElement .closed), t)) ∨
      (∃ e, (t.find p).1 = .error (.io e) ∧ (t.find p).2.Attends l) ∨
      ∃ t', t'.Follows l ∧ t'.IsOpen ∧ Settles p t' (t.find p).1 (t.find p).2 := by
  rcases Tokenizer.find_cases h.ok p with ⟨hc, hf⟩ | ⟨hu, e, t', hfill, hf⟩ |
    ⟨t', ⟨hu, hfill⟩ | ⟨ho, rfl⟩, hs⟩
  · exact .inl ⟨hc, hf⟩
  · have hattends := h.fill hu
    rw [hfill] at hattends
    rw [hf]
    obtain ⟨e', rfl⟩ := io_of_fill hfill
    exact .inr (.inl ⟨e', rfl, hattends⟩)
  · have hattends := h.fill hu
    have hready := phase_fill (t := t)
    rw [hfill] at hattends hready
    exact .inr (.inr ⟨t', hattends.toFollows, .inl (hready rfl), hs⟩)
  · exact .inr (.inr ⟨t', h.toFollows, ho, hs⟩)

theorem Attends.close (h : t.Attends l) : t.close.2.Attends l := by
  -- nothing is asked of a source any more once it is closed
  have hclosed : ∀ (s : σ) (events : List Event), Attends
      { t with source := s, phase := .closed, events := events } l := fun s events =>
    ⟨⟨h.ok, h.capacity_pos, h.le_length, h.filled_eq, fun hno => absurd rfl hno, h.ended⟩,
      Phase.noConfusion⟩
  rcases close_cases t with ⟨-, hc⟩ | ⟨-, error, s, result, events, -, hc⟩ <;> rw [hc]
  · exact h
  · exact hclosed s events

/-- Whatever a tokenizer does for a request, it attends to the stream. -/
theorem upheld_attends (l : List UInt8) : Upheld fun t : Tokenizer σ => t.Attends l where
  ok h := h.ok
  aside {t t'} h hw hs he hp := by
    rcases hp with hp | ⟨ho, ho'⟩
    · exact h.of_eq hw hs he hp
    · exact (h.toFollows.of_eq hw hs he fun hc => absurd hc ho.ne_closed).attends ho'
  place h hok hw := h.withWindow hok hw.filled_eq hw.discarded_eq hw.capacity_eq
  fill h hp := h.fill hp
  refill {t} h ho he hf := by
    refine (h.toFollows.refill ho.ne_closed he hf).attends ?_
    unfold IsOpen
    rw [phase_refill]
    exact ho

theorem Attends.after (h : t.Attends l) (ops : List Operation) : (t.after ops).Attends l :=
  (upheld_attends l).performAll (c := Client.start t) Attends.close h ops

/-- A fresh tokenizer attends to what its source supplies. -/
theorem Fresh.attends {s : σ} (h : Fresh s t) (hs : Supplies s l) : t.Attends l := by
  have hbegin : ∀ capacity cache skip events, 0 < capacity →
      Attends ⟨s, .empty capacity, .uninitialized, false, cache, skip, events⟩ l := by
    intro capacity cache skip events hc
    refine ⟨⟨Window.ok_empty capacity, hc, Nat.zero_le _, rfl, fun _ _ => hs, fun he => ?_⟩,
      fun _ => ⟨rfl, rfl⟩⟩
    cases he
  rcases h with rfl | ⟨c, hc⟩
  · exact hbegin Config.standard.bufferCapacity _ _ _ (by decide)
  · rcases withConfig_cases hc with ⟨hpos, ⟨-, rfl⟩ | ⟨regex, e, cache, events, -, rfl⟩⟩
    · exact hbegin _ _ _ _ hpos
    · exact hbegin _ _ _ _ hpos

end Tokenizer

end StreamParser
