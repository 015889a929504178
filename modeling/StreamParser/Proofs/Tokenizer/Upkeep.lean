import StreamParser.Proofs.Tokenizer.Operations

/-!
# What a tokenizer keeps up

A client may do many things with a tokenizer, but all of them are made of a few: the tokenizer reads
for the first time, makes room and reads again, moves its cursor, sets marks and gives them up.

* `Tokenizer.Upheld I` says that each of these keeps the property `I`.  Reads have to keep it only
  when they are made: never on a tokenizer that is closed, never when the source has ended, and never
  with a window that is full of bytes which have to be kept.
* Then every request keeps the property (`Tokenizer.Upheld.rawNext`, `Tokenizer.Upheld.next`, ...); and
  if to close the tokenizer keeps it as well, so does whatever a client does
  (`Tokenizer.Upheld.performAll`).
* `Tokenizer.upheld_serves`: to answer requests for a stream that ends is such a property.
-/

namespace StreamParser

/-- The two windows hold the same bytes of the stream, and have the same capacity.  Cursors and marks
may differ. -/
structure Window.SameBytes (w w' : Window) : Prop where
  capacity_eq : w'.capacity = w.capacity
  filled_eq : w'.filled = w.filled
  leftover_eq : w'.leftover = w.leftover
  discarded_eq : w'.discarded = w.discarded

theorem Window.SameBytes.refl (w : Window) : w.SameBytes w := ⟨rfl, rfl, rfl, rfl⟩

theorem Window.SameBytes.limit_eq {w w' : Window} (h : w.SameBytes w') : w'.limit = w.limit :=
  congrArg List.length h.filled_eq

namespace Tokenizer

variable {σ : Type} [Source σ] {I : Tokenizer σ → Prop} {t t' : Tokenizer σ}

/-- The tokenizer is at work: it has begun to read and is not closed. -/
def IsOpen (t : Tokenizer σ) : Prop := t.phase = .ready ∨ t.phase = .needsInput

omit [Source σ] in
theorem IsOpen.ne_closed (h : t.IsOpen) : t.phase ≠ .closed := by
  rcases h with h | h <;> rw [h] <;> exact Phase.noConfusion

omit [Source σ] in
theorem IsOpen.ne_uninitialized (h : t.IsOpen) : t.phase ≠ .uninitialized := by
  rcases h with h | h <;> rw [h] <;> exact Phase.noConfusion

/-- A read does not change what the tokenizer is doing. -/
theorem phase_read (t : Tokenizer σ) : t.read.2.phase = t.phase := by
  rcases read_cases t with ⟨bytes, count, s, -, ht⟩ | ⟨s, -, ht⟩ | ⟨e, s, -, ht⟩ <;>
    exact congrArg (·.2.phase) ht

theorem phase_refill (t : Tokenizer σ) : t.refill.2.phase = t.phase := phase_read t.compacted

/-- A tokenizer that has read for the first time is at work. -/
theorem phase_fill (h : t.fill.1 = .ok ()) : t.fill.2.phase = .ready := by
  unfold fill at h ⊢
  rcases hr : (t.note [.initialFill t.window.capacity]).read with ⟨e | _, t'⟩
  · rw [hr] at h
    cases h
  · rfl

/-- If the first read fails, it may be made again. -/
theorem phase_fill_of_error {e : TokenError} (h : t.fill.1 = .error e) :
    t.fill.2.phase = t.phase := by
  have hread := phase_read (t.note [.initialFill t.window.capacity])
  unfold fill at h ⊢
  rcases hr : (t.note [.initialFill t.window.capacity]).read with ⟨e' | _, t'⟩
  · rw [hr] at hread
    exact hread
  · rw [hr] at h
    cases h

/-- What a tokenizer at work answers is what the request is settled to. -/
theorem Settles.find_eq {p : Pattern} {r : Except TokenError Nat} (hs : Settles p t r t')
    (h : t.window.Ok) (ho : t.IsOpen) : t.find p = (r, t') := by
  have hsearch := hs.search_eq h (want_lt_effort t)
  unfold find
  rcases ho with ho | ho <;> rw [ho] <;> exact hsearch

/-- After the first read, a request is the one that could be made then. -/
theorem find_fill {p : Pattern} (hp : t.phase = .uninitialized) (hr : t.fill = (.ok (), t')) :
    t.find p = t'.find p := by
  have hready := phase_fill (t := t)
  rw [hr] at hready
  unfold find
  rw [hp, hr, hready rfl]

theorem settles_find (h : t.window.Ok) (ho : t.IsOpen) (p : Pattern) :
    Settles p t (t.find p).1 (t.find p).2 := by
  have hsearch := settles_search (p := p) h (want_lt_effort t)
  unfold find
  rcases ho with ho | ho <;> rw [ho] <;> exact hsearch

/-- A property of tokenizers that is kept by whatever a tokenizer does to answer requests. -/
structure Upheld (I : Tokenizer σ → Prop) : Prop where
  ok : ∀ {t}, I t → t.window.Ok
  /-- What the tokenizer has told, keeps in its cache and skips does not matter, nor whether the last
  request was answered. -/
  aside : ∀ {t t'}, I t → t'.window = t.window → t'.source = t.source →
    t'.exhausted = t.exhausted → t'.phase = t.phase ∨ t.IsOpen ∧ t'.IsOpen → I t'
  /-- The cursor and the marks do not matter. -/
  place : ∀ {t : Tokenizer σ} {w : Window}, I t → w.Ok → t.window.SameBytes w →
    I { t with window := w }
  fill : ∀ {t}, I t → t.phase = .uninitialized → I t.fill.2
  refill : ∀ {t}, I t → t.IsOpen → t.exhausted = false → t.window.isFull = false → I t.refill.2

/-- What keeps one of two properties keeps their disjunction. -/
theorem Upheld.or {J : Tokenizer σ → Prop} (hI : Upheld I) (hJ : Upheld J) :
    Upheld fun t => I t ∨ J t where
  ok h := h.elim hI.ok hJ.ok
  aside h hw hs he hp :=
    h.imp (fun h => hI.aside h hw hs he hp) fun h => hJ.aside h hw hs he hp
  place h hok hw := h.imp (fun h => hI.place h hok hw) fun h => hJ.place h hok hw
  fill h hp := h.imp (fun h => hI.fill h hp) fun h => hJ.fill h hp
  refill h ho he hf := h.imp (fun h => hI.refill h ho he hf) fun h => hJ.refill h ho he hf

namespace Upheld

/-- While a request is settled, the property is kept and the tokenizer stays at work. -/
theorem settles (hI : Upheld I) {p : Pattern} {r : Except TokenError Nat} (hs : Settles p t r t')
    (h : I t) (ho : t.IsOpen) : I t' ∧ t'.IsOpen := by
  have hwaits : ∀ {t : Tokenizer σ}, I t → t.IsOpen → t.verdict p = .wantsMore →
      t.window.isFull = false →
        I ({ t with phase := .needsInput } : Tokenizer σ).refill.2 ∧
          ({ t with phase := .needsInput } : Tokenizer σ).refill.2.IsOpen := by
    intro t h ho hv hf
    have hneeds : I { t with phase := .needsInput } :=
      hI.aside h rfl rfl rfl (.inr ⟨ho, .inr rfl⟩)
    exact ⟨hI.refill hneeds (.inr rfl) (exhausted_of_wantsMore (t := t) hv) hf,
      .inr (phase_refill _)⟩
  induction hs with
  | found hv => exact ⟨hI.aside h rfl rfl rfl (.inr ⟨ho, .inl rfl⟩), .inl rfl⟩
  | absent hv => exact ⟨hI.aside h rfl rfl rfl (.inr ⟨ho, .inl rfl⟩), .inl rfl⟩
  | stuck hv => exact ⟨h, ho⟩
  | full hv hf => exact ⟨hI.aside h rfl rfl rfl (.inr ⟨ho, .inr rfl⟩), .inr rfl⟩
  | failed hv hf hr =>
    have hrefill := hwaits h ho hv hf
    rw [hr] at hrefill
    exact hrefill
  | again hv hf hr hs ih =>
    have hrefill := hwaits h ho hv hf
    rw [hr] at hrefill
    exact ih hrefill.1 hrefill.2

theorem find (hI : Upheld I) (h : I t) (p : Pattern) : I (t.find p).2 := by
  rcases find_cases (hI.ok h) p with ⟨-, hf⟩ | ⟨hu, e, t', hfill, hf⟩ |
    ⟨t', ⟨hu, hfill⟩ | ⟨ho, rfl⟩, hs⟩
  · rw [hf]
    exact h
  · have hfilled := hI.fill h hu
    rw [hfill] at hfilled
    rw [hf]
    exact hfilled
  · have hfilled := hI.fill h hu
    have hready := phase_fill (t := t)
    rw [hfill] at hfilled hready
    exact (hI.settles hs hfilled (.inl (hready rfl))).1
  · exact (hI.settles hs h ho).1

theorem rawNext (hI : Upheld I) (h : I t) (p : Pattern) : I (t.rawNext p).2 := by
  have hfind := hI.find h p
  have hstop := (samePlace_find (hI.ok h) p).2.2
  rcases rawNext_cases t p with ⟨e, t', hf, hr⟩ | ⟨stop, t', e, hf, -, hr⟩ |
    ⟨stop, t', token, w, hf, htake, hr⟩ <;> rw [hf] at hfind hstop <;> rw [hr]
  · exact hfind
  · exact hfind
  · rw [Window.eq_of_take htake]
    have hmoved := hI.place hfind ((hI.ok hfind).withCursor (hstop stop rfl)) ⟨rfl, rfl, rfl, rfl⟩
    exact hI.aside hmoved rfl rfl rfl (.inl rfl)

theorem skipAhead (hI : Upheld I) (h : I t) : I t.skipAhead.2 :=
  skipAhead_of_rawNext h (hI.rawNext h)

theorem nextPattern (hI : Upheld I) (h : I t) (p : Pattern) : I (t.nextPattern p).2 := by
  have hskip := hI.skipAhead h
  unfold Tokenizer.nextPattern
  rcases hr : t.skipAhead with ⟨e | _, t'⟩ <;> rw [hr] at hskip
  · exact hskip
  · exact hI.rawNext hskip p

theorem pattern (hI : Upheld I) (h : I t) (regex : String) : I (t.pattern regex).2 := by
  unfold Tokenizer.pattern
  rcases t.cache.get regex with ⟨e | e, cache, events⟩
  · exact hI.aside h rfl rfl rfl (.inl rfl)
  · exact hI.aside h rfl rfl rfl (.inl rfl)

theorem next (hI : Upheld I) (h : I t) (regex : String) : I (t.next regex).2 := by
  have hpattern := hI.pattern h regex
  unfold Tokenizer.next
  rcases hr : t.pattern regex with ⟨e | p, t'⟩ <;> rw [hr] at hpattern
  · exact hpattern
  · exact hI.nextPattern hpattern p

theorem hasNext (hI : Upheld I) (h : I t) (regex : String) : I (t.hasNext regex).2 := by
  have hpattern := hI.pattern h regex
  unfold Tokenizer.hasNext
  rcases hr : t.pattern regex with ⟨e | p, t₁⟩ <;> rw [hr] at hpattern
  · exact hpattern
  · have hskip := hI.skipAhead hpattern
    simp only
    rcases hs : t₁.skipAhead with ⟨e | _, t₂⟩ <;> rw [hs] at hskip
    · exact hskip
    · have hfind := hI.find hskip p
      rcases hf : t₂.find p with ⟨e | stop, t₃⟩ <;> rw [hf] at hfind <;> simp only [hf]
      · exact hfind
      · exact hfind

theorem useSkipRegex (hI : Upheld I) (h : I t) (regex : String) : I (t.useSkipRegex regex).2 := by
  have hpattern := hI.pattern h regex
  unfold Tokenizer.useSkipRegex
  rcases hr : t.pattern regex with ⟨e | p, t'⟩ <;> rw [hr] at hpattern
  · exact hpattern
  · exact hI.aside hpattern rfl rfl rfl (.inl rfl)

theorem mark (hI : Upheld I) (h : I t) : I t.mark.2 :=
  hI.place h (hI.ok h).mark ⟨rfl, rfl, rfl, rfl⟩

theorem reset (hI : Upheld I) (h : I t) (m : Mark) : I (t.reset m).2 := by
  have hok := ok_reset (hI.ok h) m
  rcases reset_cases t m with ⟨n, hr⟩ | ⟨e, hr⟩ <;> rw [hr] at hok ⊢
  · exact hI.place h hok ⟨rfl, rfl, rfl, rfl⟩
  · exact h

theorem release (hI : Upheld I) (h : I t) (m : Mark) : I (t.release m).2 :=
  hI.place h ((hI.ok h).release m) ⟨rfl, rfl, rfl, rfl⟩

theorem commit (hI : Upheld I) (h : I t) : I t.commit := by
  have hforget := hI.place h (hI.ok h).forget ⟨rfl, rfl, rfl, rfl⟩
  unfold Tokenizer.commit
  by_cases hdropped : t.window.marks.length = 0
  · simp only [if_pos hdropped]
    exact hforget
  · simp only [if_neg hdropped]
    exact hI.aside hforget rfl rfl rfl (.inl rfl)

theorem perform (hI : Upheld I) {c : Client (Tokenizer σ)} (h : I c.respondent) (op : Operation)
    (hop : op = .close → I c.respondent.close.2) : I (c.perform op).respondent := by
  cases op with
  | close => exact hop rfl
  | useSkip p => exact hI.aside h rfl rfl rfl (.inl rfl)
  | useSkipRegex regex => exact hI.useSkipRegex h regex
  | request r =>
    cases r with
    | next regex => exact hI.next h regex
    | nextPattern p => exact hI.nextPattern h p
    | rawNext p => exact hI.rawNext h p
    | hasNext regex => exact hI.hasNext h regex
    | mark => exact hI.mark h
    | commit => exact hI.commit h
    | reset k =>
      show I (c.ask (.reset k)).2.respondent
      cases hk : c.marks[k]? with
      | none =>
        rw [(Client.ask_of_none hk).1]
        exact h
      | some m =>
        rw [(Client.ask_of_some hk).1]
        exact hI.reset h m
    | release k =>
      show I (c.ask (.release k)).2.respondent
      cases hk : c.marks[k]? with
      | none =>
        rw [(Client.ask_of_none hk).2]
        exact h
      | some m =>
        rw [(Client.ask_of_some hk).2]
        exact hI.release h m

/-- Whatever a client does, the property is kept. -/
theorem performAll (hI : Upheld I) (hclose : ∀ {t}, I t → I t.close.2)
    {c : Client (Tokenizer σ)} (h : I c.respondent) (ops : List Operation) :
    I (c.performAll ops).respondent := by
  induction ops generalizing c with
  | nil => exact h
  | cons op ops ih => exact ih (hI.perform h op fun _ => hclose h)

/-- So the property holds wherever a client can come. -/
theorem reachable (hI : Upheld I) (hfresh : ∀ {s : σ} {t : Tokenizer σ}, t.Fresh s → I t)
    (hclose : ∀ {t}, I t → I t.close.2) (h : Reachable t) : I t := by
  induction h with
  | fresh h => exact hfresh h
  | next h regex ih => exact hI.next ih regex
  | nextPattern h p ih => exact hI.nextPattern ih p
  | rawNext h p ih => exact hI.rawNext ih p
  | hasNext h regex ih => exact hI.hasNext ih regex
  | mark h ih => exact hI.mark ih
  | reset h m ih => exact hI.reset ih m
  | release h m ih => exact hI.release ih m
  | commit h ih => exact hI.commit ih
  | close h ih => exact hclose ih
  | useSkip h p ih => exact hI.aside ih rfl rfl rfl (.inl rfl)
  | useSkipRegex h regex ih => exact hI.useSkipRegex ih regex

end Upheld

/-! ### Sound tokenizers -/

/-- There is room for a byte in the window, and nothing is in it before anything is read. -/
structure Sound (t : Tokenizer σ) : Prop where
  ok : t.window.Ok
  capacity_pos : 0 < t.window.capacity
  untouched : t.phase = .uninitialized → t.window.limit = 0 ∧ t.exhausted = false

omit [Source σ] in
theorem IsOpen.sound (ho : t.IsOpen) (hok : t.window.Ok) (hc : 0 < t.window.capacity) : t.Sound :=
  ⟨hok, hc, fun hp => absurd hp ho.ne_uninitialized⟩

omit [Source σ] in
/-- The first read has room. -/
theorem Sound.room_pos (h : t.Sound) (hp : t.phase = .uninitialized) : 0 < t.window.room :=
  Window.room_pos_of_limit h.capacity_pos (h.untouched hp).1

theorem Sound.fill (h : t.Sound) : t.fill.2.Sound := by
  obtain ⟨hok, hsame⟩ := ok_fill h.ok
  have hcapacity : 0 < t.fill.2.window.capacity := by
    rw [hsame.capacity_eq]
    exact h.capacity_pos
  unfold Tokenizer.fill at hok hcapacity ⊢
  rcases read_cases (t.note [.initialFill t.window.capacity]) with
    ⟨bytes, count, s, -, ht⟩ | ⟨s, -, ht⟩ | ⟨e, s, -, ht⟩ <;> rw [ht] at hok hcapacity ⊢
  · exact IsOpen.sound (.inl rfl) hok hcapacity
  · exact IsOpen.sound (.inl rfl) hok hcapacity
  · exact ⟨hok, hcapacity, h.untouched⟩

theorem upheld_sound : Upheld fun t : Tokenizer σ => t.Sound where
  ok h := h.ok
  aside {t t'} h hw hs he hp := by
    have hok : t'.window.Ok := hw ▸ h.ok
    have hc : 0 < t'.window.capacity := hw ▸ h.capacity_pos
    rcases hp with hp | ⟨-, ho⟩
    · refine ⟨hok, hc, fun hno => ?_⟩
      rw [hw, he]
      exact h.untouched (hp ▸ hno)
    · exact ho.sound hok hc
  place {t w} h hok hw := by
    refine ⟨hok, ?_, fun hp => ?_⟩
    · show 0 < w.capacity
      rw [hw.capacity_eq]
      exact h.capacity_pos
    · show w.limit = 0 ∧ t.exhausted = false
      rw [hw.limit_eq]
      exact h.untouched hp
  fill h _ := h.fill
  refill {t} h ho he hf := by
    obtain ⟨hok, hsame⟩ := ok_refill h.ok
    refine IsOpen.sound ?_ hok ?_
    · unfold IsOpen
      rw [phase_refill]
      exact ho
    · rw [hsame.capacity_eq]
      exact h.capacity_pos

omit [Source σ] in
theorem Fresh.sound {s : σ} (h : t.Fresh s) : t.Sound := by
  obtain ⟨-, hexhausted, hcapacity⟩ := h.idle
  refine ⟨h.ok, hcapacity, fun _ => ⟨?_, hexhausted⟩⟩
  rw [h.window_eq]
  rfl

theorem Sound.close (h : t.Sound) : t.close.2.Sound := by
  have hclosed := phase_close t
  have hwindow := window_close t
  refine ⟨hwindow ▸ h.ok, hwindow ▸ h.capacity_pos, fun hp => ?_⟩
  rw [hclosed] at hp
  cases hp

theorem Reachable.sound (h : Reachable t) : t.Sound :=
  upheld_sound.reachable Fresh.sound Sound.close h

/-! ### Requests to a stream that ends -/

variable {l : List UInt8}

theorem Reads.serves (h : t.Reads l) (ho : t.IsOpen) : t.Serves l :=
  ⟨h, ho.ne_closed, fun hp => absurd hp ho.ne_uninitialized⟩

/-- Whatever a tokenizer does for a request, it serves its stream. -/
theorem upheld_serves (l : List UInt8) : Upheld fun t : Tokenizer σ => t.Serves l where
  ok h := h.ok
  aside {t t'} h hw hs he hp := by
    rcases hp with hp | ⟨-, ho⟩
    · exact h.of_eq hw hs he hp
    · exact (h.toReads.of_eq hw hs he).serves ho
  place h hok hw := h.withWindow hok hw.filled_eq hw.discarded_eq hw.capacity_eq
  fill {t} h hp := by
    obtain ⟨hempty, he⟩ := h.untouched hp
    obtain ⟨hresult, hreads⟩ := h.fill (Window.room_pos_of_limit h.capacity_pos hempty) he
    exact hreads.serves (.inl (phase_fill hresult))
  refill {t} h ho he hf := by
    refine (h.refill hf he).2.serves ?_
    unfold IsOpen
    rw [phase_refill]
    exact ho

end Tokenizer

end StreamParser
