import Mathlib.Data.Stream.Init
import StreamParser.Proofs.Tokenizer.Record
import StreamParser.Proofs.Tokenizer.Upkeep

/-!
# Tokenizers of an endless stream

A source may hand out bytes for ever.  A tokenizer does not look further than its window reaches, and
so it cannot tell such a source from one that ends at some place behind the window.

* `Endless s S` says that the source `s` hands out the bytes of `S`, in reads of any sizes.
* `Curtailed` is a source that ends before its time; `Tokenizer.curtail` puts such a source in the
  place of the source of a tokenizer.
* `Tokenizer.Draws t S` is the invariant of the tokenizers of an endless source: curtailed behind its
  window, the tokenizer serves a finite stream, the first bytes of `S`.
* `Tokenizer.Draws.rawNext_curtail`: it answers requests as the curtailed one does.
-/

namespace StreamParser

variable {σ : Type} [Source σ]

/-- The source hands out the bytes of `S`, cut as it likes, and does not end. -/
def Endless (s : σ) (S : Stream' UInt8) : Prop :=
  ∃ Has : σ → Stream' UInt8 → Prop, Has s S ∧ ∀ s S room, Has s S → 0 < room →
    ∃ bytes s' S', Source.read s room = (.read bytes bytes.length, s') ∧ bytes.length ≤ room ∧
      S = bytes ++ₛ S' ∧ Has s' S'

theorem Endless.read {s : σ} {S : Stream' UInt8} (h : Endless s S) {room : Nat} (hr : 0 < room) :
    ∃ bytes s' S', Source.read s room = (.read bytes bytes.length, s') ∧ bytes.length ≤ room ∧
      S = bytes ++ₛ S' ∧ Endless s' S' := by
  obtain ⟨Has, hs, hread⟩ := h
  obtain ⟨bytes, s', S', hreply, hle, rfl, hnext⟩ := hread s S room hs hr
  exact ⟨bytes, s', S', hreply, hle, rfl, Has, hnext, hread⟩

/-! ### Sources that end before their time -/

/-- The number of bytes that were handed out. -/
def Reply.size : Reply → Nat
  | read bytes _ => bytes.length
  | _ => 0

/-- A source that ends when it has handed out `left` bytes, if it has not ended before. -/
structure Curtailed (σ : Type) where
  source : σ
  left : Nat

namespace Curtailed

/-- Read at most as many bytes as are left. -/
def read (c : Curtailed σ) (room : Nat) : Reply × Curtailed σ :=
  if c.left = 0 then (.finished, c)
  else
    let (reply, s) := Source.read c.source (min room c.left)
    (reply, ⟨s, c.left - reply.size⟩)

instance : Source (Curtailed σ) where
  read := read
  close c := ((Source.close c.source).1, ⟨(Source.close c.source).2, c.left⟩)
  patience c := Source.patience c.source
  patience_read c room hr := by
    unfold read
    by_cases hleft : c.left = 0
    · rw [if_pos hleft]
      simp [Reply.isEmptyRead]
    · rw [if_neg hleft]
      exact Source.patience_read c.source (min room c.left) (by omega)

theorem read_of_pos {c : Curtailed σ} (h : 0 < c.left) (room : Nat) :
    Source.read c room = ((Source.read c.source (min room c.left)).1,
      ⟨(Source.read c.source (min room c.left)).2,
        c.left - (Source.read c.source (min room c.left)).1.size⟩) := by
  show c.read room = _
  unfold read
  rw [if_neg (by omega)]

end Curtailed

theorem take_append_stream (l : List UInt8) (S : Stream' UInt8) (n : Nat) :
    (l ++ₛ S).take (l.length + n) = l ++ S.take n := by
  induction l with
  | nil => simp
  | cons b l ih =>
    rw [List.length_cons, Nat.add_right_comm, Stream'.cons_append_stream, Stream'.take_succ_cons, ih]
    rfl

/-- An endless source that is curtailed delivers the first bytes of its stream. -/
theorem Endless.delivers {s : σ} {S : Stream' UInt8} (h : Endless s S) (n : Nat) :
    Delivers (⟨s, n⟩ : Curtailed σ) (S.take n) := by
  refine ⟨fun c rest => ∃ S, Endless c.source S ∧ rest = S.take c.left, ⟨S, h, rfl⟩, ?_⟩
  rintro c rest room ⟨S, hs, rfl⟩ hr
  by_cases hleft : c.left = 0
  · have hread : Source.read c room = (.finished, c) := if_pos hleft
    rw [hread, hleft]
    exact Stream'.take_zero S
  · have hroom : 0 < min room c.left := by omega
    obtain ⟨bytes, s', S', hreply, hle, rfl, hnext⟩ := hs.read hroom
    obtain ⟨k, hk⟩ : ∃ k, c.left = bytes.length + k := Nat.exists_eq_add_of_le (by omega)
    have hread : Source.read c room = (.read bytes bytes.length, ⟨s', k⟩) := by
      rw [Curtailed.read_of_pos (by omega), hreply]
      show (_, Curtailed.mk s' (c.left - bytes.length)) = _
      rw [hk, Nat.add_sub_cancel_left]
    rw [hread, hk, take_append_stream]
    exact ⟨rfl, by omega, S'.take k, rfl, S', hnext, rfl⟩

namespace Tokenizer

variable {t : Tokenizer σ} {l : List UInt8} {n : Nat}

/-! ### Requests to a stream that does not end -/

/-- The tokenizer with a source that ends after `n` bytes of the stream. -/
def curtail (n : Nat) (t : Tokenizer σ) : Tokenizer (Curtailed σ) :=
  t.map fun s => ⟨s, n - (t.window.discarded + t.window.limit)⟩

/-- If the end is behind what the window can hold, a read does not come to it. -/
theorem read_curtail (h : (t.curtail n).Reads l) (hl : l.length = n)
    (hn : t.window.discarded + t.window.capacity < n) (hr : 0 < t.window.room)
    (he : t.exhausted = false) : (t.curtail n).read = (t.read.1, t.read.2.curtail n) := by
  have hlimit : t.window.limit ≤ t.window.capacity := h.ok.limit_le
  have hdef : t.window.room = t.window.capacity - t.window.limit := rfl
  have hhands := (h.delivers he).read hr
  have hsource : Source.read (t.curtail n).source t.window.room =
      ((Source.read t.source t.window.room).1, ⟨(Source.read t.source t.window.room).2,
        n - (t.window.discarded + t.window.limit) -
          (Source.read t.source t.window.room).1.size⟩) := by
    have hleft : t.window.room < (t.curtail n).source.left := by
      show t.window.room < n - (t.window.discarded + t.window.limit)
      omega
    rw [Curtailed.read_of_pos (by omega), Nat.min_eq_left (by omega)]
    rfl
  have hroom : (t.curtail n).window.room = t.window.room := rfl
  rw [hsource] at hhands
  rcases read_cases t with ⟨bytes, count, s, hs, ht⟩ | ⟨s, hs, ht⟩ | ⟨e, s, hs, ht⟩ <;>
    rw [hs] at hhands hsource
  · obtain ⟨rfl, hle, -⟩ := hhands
    have hreceive := Window.limit_receive t.window bytes bytes.length
    have hleft : n - (t.window.discarded + (t.window.receive bytes bytes.length).limit) =
        n - (t.window.discarded + t.window.limit) - bytes.length := by omega
    rw [ht]
    show (t.curtail n).read = (.ok (),
      ⟨⟨s, n - (t.window.discarded + (t.window.receive bytes bytes.length).limit)⟩,
        t.window.receive bytes bytes.length, t.phase, t.exhausted, t.cache, t.skip, t.events⟩)
    unfold Tokenizer.read
    rw [hroom, hsource, hleft]
    rfl
  · -- what is left is more than the window has room for
    have hnil : l.drop (t.window.discarded + t.window.limit) = [] := hhands
    have hlength := congrArg List.length hnil
    rw [List.length_drop, List.length_nil] at hlength
    omega
  · exact hhands.elim

omit [Source σ] in
theorem compacted_curtail (h : t.window.Ok) (n : Nat) :
    (t.curtail n).compacted = t.compacted.curtail n := by
  have hret := h.retained_le_limit
  have hlimit := Window.limit_compact t.window
  have hdiscarded : t.window.compact.discarded = t.window.discarded + t.window.retained := rfl
  have hleft : n - (t.window.discarded + t.window.limit) =
      n - (t.window.compact.discarded + t.window.compact.limit) := by omega
  unfold curtail
  rw [hleft]
  rfl

/-- A read gives up none of the bytes in the window. -/
theorem discarded_read (t : Tokenizer σ) : t.read.2.window.discarded = t.window.discarded := by
  rcases read_cases t with ⟨bytes, count, s, -, ht⟩ | ⟨s, -, ht⟩ | ⟨e, s, -, ht⟩
  · rw [ht]
    rfl
  · rw [ht]
    rfl
  · rw [ht]

theorem discarded_fill (t : Tokenizer σ) : t.fill.2.window.discarded = t.window.discarded := by
  have hread := discarded_read (t.note [.initialFill t.window.capacity])
  unfold Tokenizer.fill
  rcases hr : (t.note [.initialFill t.window.capacity]).read with ⟨e | _, t'⟩
  · rw [hr] at hread
    exact hread
  · rw [hr] at hread
    exact hread

/-- The tokenizer reads the bytes of `S`: with a source that ends at any place behind what the window
can hold, it serves the bytes up to this place. -/
def Draws (t : Tokenizer σ) (S : Stream' UInt8) : Prop :=
  ∀ n, t.window.discarded + t.window.capacity < n → (t.curtail n).Serves (S.take n)

variable {S : Stream' UInt8}

theorem Draws.ok (h : t.Draws S) : t.window.Ok := (h _ (Nat.lt_succ_self _)).ok

theorem Draws.fill_curtail (h : t.Draws S) (hn : t.window.discarded + t.window.capacity < n)
    (hp : t.phase = .uninitialized) : (t.curtail n).fill = (t.fill.1, t.fill.2.curtail n) := by
  have hserves := h n hn
  obtain ⟨hempty, he⟩ := hserves.untouched hp
  have hroom : 0 < t.window.room := Window.room_pos_of_limit hserves.capacity_pos hempty
  have hreads : ((t.note [.initialFill t.window.capacity]).curtail n).Reads (S.take n) :=
    hserves.toReads.of_eq rfl rfl rfl
  have hread := read_curtail hreads (Stream'.length_take n S) hn hroom he
  have hnote : (t.curtail n).note [.initialFill (t.curtail n).window.capacity] =
      (t.note [.initialFill t.window.capacity]).curtail n := rfl
  unfold Tokenizer.fill
  rw [hnote, hread]
  rcases (t.note [.initialFill t.window.capacity]).read with ⟨e | _, t'⟩
  · rfl
  · rfl

theorem Draws.refill_curtail (h : t.Draws S)
    (hn : t.window.discarded + t.window.retained + t.window.capacity < n)
    (he : t.exhausted = false) (hf : t.window.isFull = false) :
    (t.curtail n).refill = (t.refill.1, t.refill.2.curtail n) := by
  have hserves := h n (by omega)
  have hcompacted : (t.compacted.curtail n).Reads (S.take n) := by
    rw [← compacted_curtail h.ok n]
    exact hserves.toReads.compacted he
  rw [refill_eq, refill_eq, compacted_curtail h.ok n]
  exact read_curtail hcompacted (Stream'.length_take n S) hn (h.ok.room_compact_pos hf) he

/-- Whatever a tokenizer does for a request, it goes on to read its stream. -/
theorem upheld_draws (S : Stream' UInt8) : Upheld fun t : Tokenizer σ => t.Draws S where
  ok h := h.ok
  aside {t t'} h hw hs he hp n hn := by
    have hsource : (t'.curtail n).source = (t.curtail n).source := by
      show Curtailed.mk t'.source _ = Curtailed.mk t.source _
      rw [hs, hw]
    exact (upheld_serves (S.take n)).aside (h n (hw ▸ hn)) hw hsource he hp
  place {t w} h hok hw n hn := by
    rw [show ({ t with window := w } : Tokenizer σ).window = w from rfl, hw.discarded_eq,
      hw.capacity_eq] at hn
    have hplaced := (upheld_serves (S.take n)).place (h n hn) hok hw
    have heq : ({ t with window := w } : Tokenizer σ).curtail n =
        { t.curtail n with window := w } := by
      show Tokenizer.mk (Curtailed.mk t.source (n - (w.discarded + w.limit))) _ _ _ _ _ _ = _
      rw [hw.discarded_eq, hw.limit_eq]
      rfl
    rw [heq]
    exact hplaced
  fill {t} h hp n hn := by
    rw [discarded_fill, (ok_fill h.ok).2.capacity_eq] at hn
    have hfilled := (upheld_serves (S.take n)).fill (h n hn) hp
    rw [h.fill_curtail hn hp] at hfilled
    exact hfilled
  refill {t} h ho he hf n hn := by
    have hdiscarded : t.refill.2.window.discarded = t.window.discarded + t.window.retained :=
      discarded_read t.compacted
    rw [hdiscarded, (ok_refill h.ok).2.capacity_eq] at hn
    have hrefilled := (upheld_serves (S.take n)).refill (h n (by omega)) ho he hf
    rw [h.refill_curtail hn he hf] at hrefilled
    exact hrefilled

/-- A tokenizer and the curtailed one take the steps of a request together, if the end is behind the
bytes that the window can hold from the place of the tokenizer on. -/
theorem mirrors_curtail (S : Stream' UInt8) (n : Nat) :
    Mirrors fun (t : Tokenizer σ) (u : Tokenizer (Curtailed σ)) =>
      t.Draws S ∧ t.position + t.window.capacity < n ∧ u = t.curtail n where
  phase_eq := by
    rintro t u ⟨-, -, rfl⟩
    rfl
  effort_eq := by
    rintro t u ⟨-, -, rfl⟩
    rfl
  verdict_eq := by
    rintro t u ⟨-, -, rfl⟩ p
    rfl
  isFull_eq := by
    rintro t u ⟨-, -, rfl⟩
    rfl
  capacity_eq := by
    rintro t u ⟨-, -, rfl⟩
    rfl
  pinned_eq := by
    rintro t u ⟨-, -, rfl⟩
    rfl
  note := by
    rintro t u l ⟨h, hn, rfl⟩
    exact ⟨(upheld_draws S).aside h rfl rfl rfl (.inl rfl), hn, rfl⟩
  enter := by
    rintro t u phase hp ⟨h, hn, rfl⟩
    refine ⟨fun k hk => ?_, hn, rfl⟩
    have hreads : (({ t with phase := phase } : Tokenizer σ).curtail k).Reads (S.take k) :=
      (h k hk).toReads.of_eq rfl rfl rfl
    exact hreads.serves hp
  fill := by
    rintro t u ⟨h, hn, rfl⟩ hp
    have hsame := (ok_fill h.ok).2
    have hplace : t.position = t.window.discarded + t.window.cursor := rfl
    rw [h.fill_curtail (by omega) hp]
    refine ⟨rfl, (upheld_draws S).fill h hp, ?_, rfl⟩
    rw [hsame.position_eq, hsame.capacity_eq]
    exact hn
  refill := by
    rintro t u ⟨h, hn, rfl⟩ hp he hf
    have hsame := (ok_refill h.ok).2
    have hret := Window.retained_le_cursor t.window
    have hplace : t.position = t.window.discarded + t.window.cursor := rfl
    rw [h.refill_curtail (by omega) he hf]
    refine ⟨rfl, (upheld_draws S).refill h (.inr hp) he hf, ?_, rfl⟩
    rw [hsame.position_eq, hsame.capacity_eq]
    exact hn

/-- **A tokenizer cannot see the end from afar.**  It answers as it would if the source ended behind
the bytes that the window can hold from its place on. -/
theorem Draws.rawNext_curtail (h : t.Draws S) (hn : t.position + t.window.capacity < n)
    (p : Pattern) : (t.curtail n).rawNext p = ((t.rawNext p).1, (t.rawNext p).2.curtail n) := by
  obtain ⟨hresult, -, -, hafter⟩ := (mirrors_curtail S n).find ⟨h, hn, rfl⟩ p
  have hfind : (t.curtail n).find p = ((t.find p).1, (t.find p).2.curtail n) :=
    Prod.ext hresult hafter
  unfold Tokenizer.rawNext
  rw [hfind]
  rcases hf : t.find p with ⟨e | stop, t'⟩
  · rfl
  · have hwindow : (t'.curtail n).window = t'.window := rfl
    simp only [hwindow]
    rcases htake : t'.window.take stop with e | ⟨token, w⟩
    · rfl
    · rw [Window.eq_of_take htake]
      rfl

omit [Source σ] in
theorem Fresh.source_eq {s : σ} (h : Fresh s t) : t.source = s := by
  rcases h with rfl | ⟨c, hc⟩
  · rfl
  · rcases withConfig_cases hc with ⟨-, ⟨-, rfl⟩ | ⟨regex, e, cache, events, -, rfl⟩⟩
    · rfl
    · rfl

/-- A fresh tokenizer reads what its source hands out. -/
theorem Fresh.draws {s : σ} (h : Fresh s t) (hs : Endless s S) : t.Draws S := by
  intro n hn
  obtain ⟨hphase, he, hcapacity⟩ := h.idle
  have hdiscarded : t.window.discarded = 0 := by
    rw [h.window_eq]
    rfl
  have hlimit : t.window.limit = 0 := by
    rw [h.window_eq]
    rfl
  have hfilled : t.window.filled = [] := by
    rw [h.window_eq]
    rfl
  refine ⟨⟨h.ok, hcapacity, ?_, ?_, fun _ => ?_, fun hyes => ?_⟩, ?_, fun _ => ⟨hlimit, he⟩⟩
  · show t.window.discarded + t.window.limit ≤ (S.take n).length
    rw [Stream'.length_take]
    omega
  · show t.window.filled = ((S.take n).drop t.window.discarded).take t.window.limit
    rw [hfilled, hlimit, List.take_zero]
  · show Delivers (Curtailed.mk t.source (n - (t.window.discarded + t.window.limit)))
      ((S.take n).drop (t.window.discarded + t.window.limit))
    rw [h.source_eq, hdiscarded, hlimit]
    exact hs.delivers n
  · have hyes : t.exhausted = true := hyes
    rw [he] at hyes
    cases hyes
  · show t.phase ≠ .closed
    rw [hphase]
    exact Phase.noConfusion

end Tokenizer

end StreamParser
