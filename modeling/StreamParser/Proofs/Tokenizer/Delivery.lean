import StreamParser.Proofs.Tokenizer.Search
import StreamParser.Source.Script

/-!
# Tokenizers of a finite stream

* `Delivers s l` says that the source `s` hands out the bytes `l`, in reads of any sizes, and ends
  then.  No read fails.
* `Tokenizer.Reads t l` is the invariant of the tokenizers of such a source: the window holds the
  bytes of `l` that it should, and the source delivers those after them.  Reading keeps it, wherever
  the source cuts.
* `Tokenizer.Serves t l` adds that requests are answered.
-/

namespace StreamParser

variable {σ : Type} [Source σ]

/-- A source that has the bytes `rest` to hand out may answer a read so; `next` is about what it has
to hand out after that. -/
def Reply.Hands (room : Nat) (rest : List UInt8) (next : List UInt8 → Prop) : Reply → Prop
  | read bytes count =>
    count = bytes.length ∧ bytes.length ≤ room ∧ ∃ rest', rest = bytes ++ rest' ∧ next rest'
  | finished => rest = []
  | failed _ => False

/-- The source hands out `rest`, cut as it likes, and then ends.  Some relation between sources and
what they have to hand out holds here, and each read keeps it. -/
def Delivers (s : σ) (rest : List UInt8) : Prop :=
  ∃ Has : σ → List UInt8 → Prop, Has s rest ∧ ∀ s rest room, Has s rest → 0 < room →
    (Source.read s room).1.Hands room rest (Has (Source.read s room).2)

theorem Delivers.read {s : σ} {rest : List UInt8} (h : Delivers s rest) {room : Nat}
    (hr : 0 < room) :
    (Source.read s room).1.Hands room rest (Delivers (Source.read s room).2) := by
  obtain ⟨Has, hs, hread⟩ := h
  have := hread s rest room hs hr
  cases hreply : (Source.read s room).1 with
  | read bytes count =>
    rw [hreply] at this
    obtain ⟨hcount, hle, rest', hrest, hnext⟩ := this
    exact ⟨hcount, hle, rest', hrest, Has, hnext, hread⟩
  | finished =>
    rw [hreply] at this
    exact this
  | failed e =>
    rw [hreply] at this
    exact this.elim

/-- A script that does nothing but hand out bytes delivers them, whatever the sizes of the reads. -/
theorem Script.delivers {s : Script} (h : ∀ step ∈ s.steps, ∃ n, step = .hand n) :
    Delivers s s.bytes := by
  have hhand : ∀ (s : Script) (n room : Nat), n ≤ room →
      (∀ step ∈ s.steps, ∃ n, step = .hand n) →
      (s.hand n 0).1.Hands room s.bytes fun rest =>
        (s.hand n 0).2.bytes = rest ∧ ∀ step ∈ (s.hand n 0).2.steps, ∃ n, step = .hand n := by
    intro s n room hn hs
    refine ⟨rfl, ?_, s.bytes.drop n, (List.take_append_drop n s.bytes).symm, rfl, hs⟩
    exact Nat.le_trans (List.length_take_le n s.bytes) hn
  -- such scripts go on as such scripts
  refine ⟨fun s rest => s.bytes = rest ∧ ∀ step ∈ s.steps, ∃ n, step = .hand n, ⟨rfl, h⟩, ?_⟩
  rintro s rest room ⟨rfl, hs⟩ hroom
  show (s.read room).1.Hands room s.bytes fun rest =>
    (s.read room).2.bytes = rest ∧ ∀ step ∈ (s.read room).2.steps, ∃ n, step = .hand n
  cases hsteps : s.steps with
  | cons step steps =>
    obtain ⟨n, rfl⟩ := hs step (by rw [hsteps]; exact List.mem_cons_self)
    have hread : s.read room = Script.hand { s with steps := steps } (min n room) 0 := by
      unfold Script.read
      rw [hsteps]
    rw [hread]
    exact hhand { s with steps := steps } (min n room) room (Nat.min_le_right _ _)
      fun step hstep => hs step (by rw [hsteps]; exact List.mem_cons_of_mem _ hstep)
  | nil =>
    by_cases hb : s.bytes.isEmpty = true
    · have hread : s.read room = (.finished, s) := by
        unfold Script.read
        rw [hsteps]
        exact if_pos hb
      rw [hread]
      exact List.isEmpty_iff.1 hb
    · have hread : ∃ n ≤ room, s.read room = s.hand n 0 := by
        unfold Script.read
        rw [hsteps]
        simp only [if_neg hb]
        refine ⟨_, ?_, rfl⟩
        split
        · exact Nat.min_le_right _ _
        · exact Nat.le_refl _
      obtain ⟨n, hn, hread⟩ := hread
      rw [hread]
      exact hhand s n room hn hs

namespace Tokenizer

/-- What the tokenizer reads is `l`. -/
structure Reads (t : Tokenizer σ) (l : List UInt8) : Prop where
  ok : t.window.Ok
  capacity_pos : 0 < t.window.capacity
  le_length : t.window.discarded + t.window.limit ≤ l.length
  filled_eq : t.window.filled = (l.drop t.window.discarded).take t.window.limit
  /-- What is not in the window yet is still to come. -/
  delivers : t.exhausted = false →
    Delivers t.source (l.drop (t.window.discarded + t.window.limit))
  /-- The end was found when there was still room in the window. -/
  ended : t.exhausted = true →
    t.window.discarded + t.window.limit = l.length ∧ t.window.limit < t.window.capacity

/-- The tokenizer answers requests, and what it reads is `l`. -/
structure Serves (t : Tokenizer σ) (l : List UInt8) : Prop extends t.Reads l where
  not_closed : t.phase ≠ .closed
  untouched : t.phase = .uninitialized → t.window.limit = 0 ∧ t.exhausted = false

variable {t : Tokenizer σ} {l : List UInt8}

theorem Reads.position_le (h : t.Reads l) : t.position ≤ l.length := by
  have := h.ok.cursor_le
  have := h.le_length
  show t.window.discarded + t.window.cursor ≤ l.length
  omega

/-- What the tokenizer is doing, what it skips and what it has told does not matter. -/
theorem Reads.of_eq {t' : Tokenizer σ} (h : t.Reads l) (hw : t'.window = t.window)
    (hs : t'.source = t.source) (he : t'.exhausted = t.exhausted) : t'.Reads l where
  ok := hw ▸ h.ok
  capacity_pos := hw ▸ h.capacity_pos
  le_length := hw ▸ h.le_length
  filled_eq := hw ▸ h.filled_eq
  delivers hno := by
    rw [hw, hs]
    exact h.delivers (he ▸ hno)
  ended hyes := hw ▸ h.ended (he ▸ hyes)

theorem Serves.of_eq {t' : Tokenizer σ} (h : t.Serves l) (hw : t'.window = t.window)
    (hs : t'.source = t.source) (he : t'.exhausted = t.exhausted) (hp : t'.phase = t.phase) :
    t'.Serves l where
  toReads := h.toReads.of_eq hw hs he
  not_closed := hp ▸ h.not_closed
  untouched hno := by
    rw [hw, he]
    exact h.untouched (hp ▸ hno)

/-- Only the bytes of the window and its place in the stream matter, not the cursor and the
marks. -/
theorem Reads.withWindow (h : t.Reads l) {w : Window} (hok : w.Ok)
    (hf : w.filled = t.window.filled) (hd : w.discarded = t.window.discarded)
    (hc : w.capacity = t.window.capacity) : Reads { t with window := w } l := by
  have hl : w.limit = t.window.limit := congrArg List.length hf
  refine ⟨hok, ?_, ?_, ?_, fun he => ?_, fun he => ?_⟩
  · show 0 < w.capacity
    rw [hc]
    exact h.capacity_pos
  · show w.discarded + w.limit ≤ l.length
    rw [hd, hl]
    exact h.le_length
  · show w.filled = (l.drop w.discarded).take w.limit
    rw [hf, hd, hl]
    exact h.filled_eq
  · show Delivers t.source (l.drop (w.discarded + w.limit))
    rw [hd, hl]
    exact h.delivers he
  · show w.discarded + w.limit = l.length ∧ w.limit < w.capacity
    rw [hd, hl, hc]
    exact h.ended he

theorem Serves.withWindow (h : t.Serves l) {w : Window} (hok : w.Ok)
    (hf : w.filled = t.window.filled) (hd : w.discarded = t.window.discarded)
    (hc : w.capacity = t.window.capacity) : Serves { t with window := w } l where
  toReads := h.toReads.withWindow hok hf hd hc
  not_closed := h.not_closed
  untouched hp := by
    show w.filled.length = 0 ∧ t.exhausted = false
    rw [hf]
    exact h.untouched hp

/-! ### Reading -/

/-- As long as there is room and the end is not found, a read succeeds and takes up what comes
next. -/
theorem Reads.read (h : t.Reads l) (hr : 0 < t.window.room) (he : t.exhausted = false) :
    t.read.1 = .ok () ∧ t.read.2.Reads l := by
  have hread := (h.delivers he).read hr
  rcases read_cases t with ⟨bytes, count, s, hs, ht⟩ | ⟨s, hs, ht⟩ | ⟨e, s, hs, ht⟩
  · rw [hs] at hread
    obtain ⟨rfl, hle, rest, hrest, hnext⟩ := hread
    rw [ht]
    -- all bytes of the read fit, so none is lost
    have hfilled := Window.filled_receive hle
    have hlimit : (t.window.receive bytes bytes.length).limit = t.window.limit + bytes.length := by
      rw [Window.limit_receive, Nat.min_eq_left hle]
    have hlen := congrArg List.length hrest
    rw [List.length_drop, List.length_append] at hlen
    have hle' := h.le_length
    have hdrop : l.drop (t.window.discarded + (t.window.limit + bytes.length)) = rest := by
      rw [← Nat.add_assoc, ← List.drop_drop, hrest, List.drop_left]
    refine ⟨rfl, h.ok.receive bytes _, h.capacity_pos, ?_, ?_, fun _ => ?_, fun he' => ?_⟩
    · show t.window.discarded + (t.window.receive bytes bytes.length).limit ≤ l.length
      omega
    · show (t.window.receive bytes bytes.length).filled =
        (l.drop t.window.discarded).take (t.window.receive bytes bytes.length).limit
      have htake : (l.drop (t.window.discarded + t.window.limit)).take bytes.length = bytes := by
        rw [hrest, List.take_left]
      rw [hfilled, hlimit, List.take_add, List.drop_drop, htake, ← h.filled_eq]
    · show Delivers s
        (l.drop (t.window.discarded + (t.window.receive bytes bytes.length).limit))
      rw [hlimit, hdrop]
      exact hnext
    · rw [show t.exhausted = true from he'] at he
      cases he
  · rw [hs] at hread
    rw [ht]
    -- the source has nothing left, and the window still has room
    have hlen := congrArg List.length (show l.drop _ = [] from hread)
    rw [List.length_drop, List.length_nil] at hlen
    have hle := h.le_length
    refine ⟨rfl, h.ok, h.capacity_pos, hle, h.filled_eq, fun he' => ?_, fun _ => ?_⟩
    · cases he'
    · have hroom : 0 < t.window.capacity - t.window.limit := hr
      show t.window.discarded + t.window.limit = l.length ∧ t.window.limit < t.window.capacity
      omega
  · rw [hs] at hread
    exact hread.elim

theorem Reads.compacted (h : t.Reads l) (he : t.exhausted = false) : t.compacted.Reads l := by
  have hlimit := Window.limit_compact t.window
  have hdiscarded : t.window.compact.discarded = t.window.discarded + t.window.retained := rfl
  have hle := h.le_length
  have hret := h.ok.retained_le_limit
  refine ⟨h.ok.compact, h.capacity_pos, ?_, ?_, fun _ => ?_, fun he' => ?_⟩
  · show t.window.compact.discarded + t.window.compact.limit ≤ l.length
    omega
  · show t.window.filled.drop t.window.retained =
      (l.drop t.window.compact.discarded).take t.window.compact.limit
    rw [h.filled_eq, List.drop_take, List.drop_drop, hlimit, hdiscarded]
  · have hplace : t.window.compact.discarded + t.window.compact.limit =
        t.window.discarded + t.window.limit := by omega
    show Delivers t.source (l.drop (t.window.compact.discarded + t.window.compact.limit))
    rw [hplace]
    exact h.delivers he
  · rw [show t.exhausted = true from he'] at he
    cases he

/-- If the window is not full of bytes that have to be kept, more bytes can be read. -/
theorem Reads.refill (h : t.Reads l) (hf : t.window.isFull = false) (he : t.exhausted = false) :
    t.refill.1 = .ok () ∧ t.refill.2.Reads l := by
  rw [refill_eq]
  exact (h.compacted he).read (h.ok.room_compact_pos hf) he

/-- The first read succeeds. -/
theorem Reads.fill (h : t.Reads l) (hr : 0 < t.window.room) (he : t.exhausted = false) :
    t.fill.1 = .ok () ∧ t.fill.2.Reads l := by
  have hnote : (t.note [.initialFill t.window.capacity]).Reads l := h.of_eq rfl rfl rfl
  have hread := hnote.read hr he
  unfold Tokenizer.fill
  rcases ht : (t.note [.initialFill t.window.capacity]).read with ⟨_ | _, t'⟩
  · rw [ht] at hread
    cases hread.1
  · rw [ht] at hread
    exact ⟨rfl, hread.2.of_eq rfl rfl rfl⟩

/-! ### The beginning -/

omit [Source σ] in
/-- How a tokenizer with a configuration begins. -/
theorem withConfig_cases {s : σ} {c : Config} (h : withConfig s c = .ok t) :
    0 < c.bufferCapacity ∧
      (c.skipPattern = none ∧
          t = ⟨s, .empty c.bufferCapacity, .uninitialized, false, .empty c.cacheCapacity, none,
            []⟩ ∨
        ∃ regex e cache events,
          (PatternCache.empty c.cacheCapacity).get regex = (.ok e, cache, events) ∧
          t = ⟨s, .empty c.bufferCapacity, .uninitialized, false, cache, some e.pattern,
            events.reverse⟩) := by
  unfold withConfig Config.validate at h
  by_cases hb : c.bufferCapacity = 0
  · rw [if_pos hb] at h
    cases h
  · by_cases hk : c.cacheCapacity = 0
    · rw [if_neg hb, if_pos hk] at h
      cases h
    · rw [if_neg hb, if_neg hk] at h
      refine ⟨Nat.pos_of_ne_zero hb, ?_⟩
      cases hs : c.skipPattern with
      | none =>
        rw [hs] at h
        cases h
        exact .inl ⟨rfl, rfl⟩
      | some regex =>
        rw [hs] at h
        rcases hget : (PatternCache.empty c.cacheCapacity).get regex with ⟨e | e, cache, events⟩ <;>
          simp only [hget] at h <;> cases h
        exact .inr ⟨regex, e, cache, events, hget, rfl⟩

/-- A tokenizer of which nothing was asked, with the standard configuration or another one. -/
def Fresh (s : σ) (t : Tokenizer σ) : Prop := t = new s ∨ ∃ c, withConfig s c = .ok t

omit [Source σ] in
theorem Fresh.window_eq {s : σ} (h : Fresh s t) : t.window = .empty t.window.capacity := by
  rcases h with rfl | ⟨c, hc⟩
  · rfl
  · rcases withConfig_cases hc with ⟨-, ⟨-, rfl⟩ | ⟨regex, e, cache, events, -, rfl⟩⟩
    · rfl
    · rfl

omit [Source σ] in
/-- A fresh tokenizer has not begun to read, and has room. -/
theorem Fresh.idle {s : σ} (h : Fresh s t) :
    t.phase = .uninitialized ∧ t.exhausted = false ∧ 0 < t.window.capacity := by
  rcases h with rfl | ⟨c, hc⟩
  · exact ⟨rfl, rfl, Nat.zero_lt_succ _⟩
  · rcases withConfig_cases hc with ⟨hpos, ⟨-, rfl⟩ | ⟨regex, e, cache, events, -, rfl⟩⟩
    · exact ⟨rfl, rfl, hpos⟩
    · exact ⟨rfl, rfl, hpos⟩

omit [Source σ] in
theorem Fresh.ok {s : σ} (h : Fresh s t) : t.window.Ok := by
  rw [h.window_eq]
  exact Window.ok_empty _

/-- A fresh tokenizer reads what its source delivers. -/
theorem Fresh.serves {s : σ} (h : Fresh s t) (hs : Delivers s l) : t.Serves l := by
  have hbegin : ∀ capacity cache skip events, 0 < capacity →
      Serves ⟨s, .empty capacity, .uninitialized, false, cache, skip, events⟩ l := by
    intro capacity cache skip events hc
    refine ⟨⟨Window.ok_empty capacity, hc, Nat.zero_le _, rfl, fun _ => hs, fun he => ?_⟩, ?_,
      fun _ => ⟨rfl, rfl⟩⟩
    · cases he
    · exact fun hno => by cases hno
  rcases h with rfl | ⟨c, hc⟩
  · exact hbegin Config.standard.bufferCapacity _ _ _ (by decide)
  · rcases withConfig_cases hc with ⟨hpos, ⟨-, rfl⟩ | ⟨regex, e, cache, events, -, rfl⟩⟩
    · exact hbegin _ _ _ _ hpos
    · exact hbegin _ _ _ _ hpos

end Tokenizer

end StreamParser
