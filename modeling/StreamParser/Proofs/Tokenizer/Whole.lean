import StreamParser.Proofs.Pattern.Language
import StreamParser.Proofs.Tokenizer.Delivery

/-!
# A tokenizer with the whole stream in memory

* A `Whole` has a whole stream and a place in it, and no window.  Of the window that it does without
  it knows only the capacity: `Whole.Overflows` says that the bytes which such a window would have to
  keep do not tell the answer.
* `Tokenizer.whole t l` is what a tokenizer `t` of the stream `l` is, seen from outside.
* `Tokenizer.Serves.find` and `Tokenizer.Serves.rawNext` say that a tokenizer answers a request for
  a streamable pattern as the `Whole` does that it is.
-/

namespace StreamParser

/-- A tokenizer with the whole stream in memory. -/
structure Whole where
  stream : List UInt8
  /-- The capacity of the window that it does without. -/
  capacity : Nat
  /-- What is skipped before a token. -/
  skip : Option Pattern
  /-- The place in the stream up to which bytes are consumed. -/
  position : Nat
  /-- The marks that are held. -/
  marks : List Mark
  /-- The number of the next mark. -/
  nextMark : Nat

namespace Whole

/-- The bytes that are not consumed. -/
def unread (w : Whole) : List UInt8 := w.stream.drop w.position

/-- The place of the first byte that has to be kept. -/
def oldest (w : Whole) : Nat := StreamParser.oldest w.position w.marks

/-- What a window with only the bytes that have to be kept would hold. -/
def window (w : Whole) : List UInt8 := (w.stream.drop w.oldest).take w.capacity

/-- The bytes from the oldest place on fill a window, and that window does not tell the answer. -/
def Overflows (w : Whole) (p : Pattern) : Prop :=
  w.oldest + w.capacity ≤ w.stream.length ∧
    (p.matchAt w.window (w.position - w.oldest) false = .ok .needsInput ∨
      p.matchAt w.window (w.position - w.oldest) false = .ok .noMatch ∧
        w.position - w.oldest = w.capacity)

instance (w : Whole) (p : Pattern) : Decidable (w.Overflows p) :=
  inferInstanceAs (Decidable (_ ∧ _))

/-- Why nothing is found when a window is full. -/
def overflow (w : Whole) : TokenError :=
  if w.position = w.oldest then .noSuchElement (.exceedsBuffer w.capacity)
  else .windowFull w.capacity (w.position - w.oldest)

/-- Why nothing is found when there is no match. -/
def mismatch (w : Whole) (p : Pattern) : TokenError :=
  if w.position = w.stream.length then .noSuchElement .exhausted else .inputMismatch p.source

/-- The place in the stream where the next token ends. -/
def lookup (w : Whole) (p : Pattern) : Except TokenError Nat :=
  if w.Overflows p then .error w.overflow
  else
    match p.matchAt w.stream w.position true with
    | .ok (.matched stop) => .ok stop
    | .ok _ => .error (w.mismatch p)
    | .error e => .error (.pattern e)

/-- What an answer for the bytes that are not consumed says about the next token. -/
def outcome (w : Whole) (p : Pattern) : MatchStatus → Except TokenError Nat
  | .matched n => .ok (w.position + n)
  | _ => .error (w.mismatch p)

/-! ### What is found -/

theorem oldest_le (w : Whole) : w.oldest ≤ w.position := oldest_le_position w.position w.marks

theorem matchAt_of_lookup {w : Whole} {p : Pattern} {stop : Nat} (h : w.lookup p = .ok stop) :
    p.matchAt w.stream w.position true = .ok (.matched stop) := by
  unfold lookup at h
  split at h
  · cases h
  · split at h <;> cases h
    assumption

/-- The bytes of a token encode a text. -/
theorem isSome_text?_of_lookup {w : Whole} {p : Pattern} {stop : Nat} (h : w.lookup p = .ok stop) :
    (Utf8.text? ((w.stream.take stop).drop w.position)).isSome = true := by
  by_cases hw : w.position ≤ w.stream.length
  · exact Pattern.isSome_text?_of_matchAt hw (matchAt_of_lookup h)
  · have hlength := List.length_take_le' stop w.stream
    rw [List.drop_of_length_le (by omega)]
    rfl

/-- Consume a token, without skipping anything before it. -/
def rawNext (w : Whole) (p : Pattern) : Except TokenError String × Whole :=
  match h : w.lookup p with
  | .ok stop =>
    (.ok ((Utf8.text? ((w.stream.take stop).drop w.position)).get (isSome_text?_of_lookup h)),
      { w with position := stop })
  | .error e => (.error e, w)

theorem rawNext_of_ok {w : Whole} {p : Pattern} {stop : Nat} {token : String}
    (h : w.lookup p = .ok stop)
    (ht : Utf8.text? ((w.stream.take stop).drop w.position) = some token) :
    w.rawNext p = (.ok token, { w with position := stop }) := by
  unfold rawNext
  split
  · rename_i stop' h'
    obtain rfl := Except.ok.inj (h.symm.trans h')
    simp only [ht, Option.get_some]
  · rename_i e h'
    rw [h] at h'
    cases h'

theorem rawNext_of_error {w : Whole} {p : Pattern} {e : TokenError} (h : w.lookup p = .error e) :
    w.rawNext p = (.error e, w) := by
  unfold rawNext
  split
  · rename_i stop h'
    rw [h] at h'
    cases h'
  · rename_i e' h'
    obtain rfl := Except.error.inj (h.symm.trans h')
    rfl

/-- If there is no token, the window overflows or the pattern does not match. -/
theorem cases_of_lookup_error {w : Whole} (hw : w.position ≤ w.stream.length) {p : Pattern}
    (hp : p.Streamable) {e : TokenError} (h : w.lookup p = .error e) :
    e = w.overflow ∧ w.capacity ≤ w.stream.length ∨
      e = w.mismatch p ∧ ∃ st, p.matchAt w.stream w.position true = .ok st ∧
        ∀ stop, st ≠ .matched stop := by
  unfold lookup at h
  by_cases ho : w.Overflows p
  · rw [if_pos ho] at h
    cases h
    have := ho.1
    exact .inl ⟨rfl, by omega⟩
  · obtain ⟨st, hst⟩ := hp.total (w.stream.drop w.position) true
    have hmatch : p.matchAt w.stream w.position true = .ok (st.shift w.position) := by
      rw [hp.shift _ _ _ hw, hst]
      rfl
    rw [if_neg ho, hmatch] at h
    refine .inr ?_
    cases st with
    | matched n => cases h
    | needsInput =>
      cases h
      exact ⟨rfl, _, hmatch, fun _ hno => by cases hno⟩
    | noMatch =>
      cases h
      exact ⟨rfl, _, hmatch, fun _ hno => by cases hno⟩

/-- A window that has only bytes that have to be kept holds the first bytes that are not
consumed. -/
theorem drop_window (w : Whole) :
    w.window.drop (w.position - w.oldest) = w.unread.take (w.oldest + w.capacity - w.position) := by
  have := w.oldest_le
  have hplace : w.oldest + (w.position - w.oldest) = w.position := by omega
  have hroom : w.capacity - (w.position - w.oldest) = w.oldest + w.capacity - w.position := by
    omega
  unfold window unread
  rw [List.drop_take, List.drop_drop, hplace, hroom]

/-- What is found in terms of the bytes that are not consumed, for a pattern that can be matched
piece by piece. -/
theorem lookup_of_not_overflows {w : Whole} (hw : w.position ≤ w.stream.length) {p : Pattern}
    (hp : p.Streamable) (ho : ¬ w.Overflows p) {st : MatchStatus}
    (h : p.matchAt w.unread 0 true = .ok st) :
    w.lookup p = w.outcome p st := by
  have hstream : p.matchAt w.stream w.position true = .ok (st.shift w.position) := by
    rw [hp.shift w.stream w.position true hw]
    show (p.matchAt w.unread 0 true).map _ = _
    rw [h]
    rfl
  unfold lookup
  rw [if_neg ho, hstream]
  cases st <;> rfl

/-- The answer of a full window, in terms of the bytes that are not consumed. -/
theorem overflows_iff {w : Whole} {p : Pattern} (hp : p.Streamable)
    (hfull : w.oldest + w.capacity ≤ w.stream.length) (hpos : w.position - w.oldest ≤ w.capacity)
    {st : MatchStatus}
    (h : p.matchAt (w.unread.take (w.oldest + w.capacity - w.position)) 0 false = .ok st) :
    w.Overflows p ↔ st = .needsInput ∨ st = .noMatch ∧ w.position - w.oldest = w.capacity := by
  have hlength : w.window.length = w.capacity := by
    unfold window
    rw [List.length_take, List.length_drop]
    omega
  have hwindow : p.matchAt w.window (w.position - w.oldest) false =
      .ok (st.shift (w.position - w.oldest)) := by
    rw [hp.shift w.window _ false (by omega), drop_window, h]
    rfl
  unfold Overflows
  rw [hwindow]
  cases st <;> simp [MatchStatus.shift, hfull]

end Whole

namespace Tokenizer

variable {σ : Type} {t : Tokenizer σ} {l : List UInt8}

/-- What a tokenizer of the stream `l` is, seen from outside. -/
def whole (t : Tokenizer σ) (l : List UInt8) : Whole :=
  ⟨l, t.window.capacity, t.skip, t.position, t.window.marks, t.window.nextMark⟩

/-- The bytes that have to be kept begin where a window that is compacted would begin. -/
theorem oldest_whole (h : t.window.Ok) (l : List UInt8) :
    (t.whole l).oldest = t.window.discarded + t.window.retained :=
  h.discarded_add_retained.symm

theorem SamePlace.whole_eq {t' : Tokenizer σ} (h : SamePlace t t') (l : List UInt8) :
    t'.whole l = t.whole l := by
  unfold whole
  rw [h.capacity_eq, h.skip_eq, h.position_eq, h.marks_eq, h.nextMark_eq]

variable [Source σ]

/-- The window holds the first of the bytes that are not consumed. -/
theorem Reads.unconsumed_eq (h : t.Reads l) :
    t.window.unconsumed = (t.whole l).unread.take (t.window.limit - t.window.cursor) := by
  unfold Window.unconsumed
  rw [h.filled_eq, List.drop_take, List.drop_drop]
  rfl

/-- When the end is found, the window holds all of them. -/
theorem Reads.unconsumed_of_exhausted (h : t.Reads l) (he : t.exhausted = true) :
    t.window.unconsumed = (t.whole l).unread := by
  have hlen : (t.whole l).unread.length ≤ t.window.limit - t.window.cursor := by
    show (l.drop (t.window.discarded + t.window.cursor)).length ≤ _
    rw [List.length_drop]
    have := (h.ended he).1
    omega
  rw [h.unconsumed_eq, List.take_of_length_le hlen]

/-- When the end is found, nothing overflows. -/
theorem Reads.not_overflows_of_exhausted (h : t.Reads l) (he : t.exhausted = true) (p : Pattern) :
    ¬ (t.whole l).Overflows p := by
  rintro ⟨hfull, -⟩
  have hfull : (t.whole l).oldest + t.window.capacity ≤ l.length := hfull
  have hold := oldest_whole h.ok l
  have := h.ended he
  omega

/-- A settled answer for the bytes in the window is the answer for the whole stream, and for a full
window. -/
theorem Reads.settled (h : t.Reads l) {p : Pattern} (hp : p.Streamable) {st : MatchStatus}
    (hst : p.matchAt t.window.unconsumed 0 false = .ok st) (hn : st ≠ .needsInput) :
    p.matchAt (t.whole l).unread 0 true = .ok st ∧
      p.matchAt ((t.whole l).unread.take
        ((t.whole l).oldest + (t.whole l).capacity - (t.whole l).position)) 0 false = .ok st := by
  have hold := oldest_whole h.ok l
  have hpos : (t.whole l).position = t.window.discarded + t.window.cursor := rfl
  have hcap : (t.whole l).capacity = t.window.capacity := rfl
  have hlimit := h.ok.limit_le
  have hle : t.window.limit - t.window.cursor ≤
      (t.whole l).oldest + (t.whole l).capacity - (t.whole l).position := by omega
  have happend : ∀ n, t.window.limit - t.window.cursor ≤ n →
      ∃ c, (t.whole l).unread.take n = t.window.unconsumed ++ c := by
    intro n hn
    obtain ⟨k, rfl⟩ := Nat.exists_eq_add_of_le hn
    rw [h.unconsumed_eq, List.take_add]
    exact ⟨_, rfl⟩
  obtain ⟨c, hc⟩ := happend _ hle
  refine ⟨?_, ?_⟩
  · rw [← List.take_append_drop (t.window.limit - t.window.cursor) (t.whole l).unread,
      ← h.unconsumed_eq]
    exact hp.stands _ _ _ hst hn true
  · rw [hc]
    exact hp.stands _ _ _ hst hn false

/-- If the window tells the answer, it is the answer for the whole stream. -/
theorem Reads.lookup_eq (h : t.Reads l) {p : Pattern} (hp : p.Streamable) {st : MatchStatus}
    (hst : p.matchAt t.window.unconsumed 0 t.exhausted = .ok st)
    (htold : t.exhausted = true ∨
      st ≠ .needsInput ∧ (st = .noMatch → t.window.cursor < t.window.limit)) :
    (t.whole l).lookup p = (t.whole l).outcome p st := by
  have hw : (t.whole l).position ≤ (t.whole l).stream.length := h.position_le
  cases he : t.exhausted with
  | true =>
    rw [he, h.unconsumed_of_exhausted he] at hst
    exact Whole.lookup_of_not_overflows hw hp (h.not_overflows_of_exhausted he p) hst
  | false =>
    rw [he] at hst htold
    obtain ⟨hn, hno⟩ := htold.resolve_left Bool.false_ne_true
    obtain ⟨hwhole, hfull⟩ := h.settled hp hst hn
    refine Whole.lookup_of_not_overflows hw hp (fun ho => ?_) hwhole
    have hold := oldest_whole h.ok l
    have hpos : (t.whole l).position = t.window.discarded + t.window.cursor := rfl
    have hcap : (t.whole l).capacity = t.window.capacity := rfl
    have hcursor := h.ok.cursor_le
    have hlimit := h.ok.limit_le
    rcases (Whole.overflows_iff hp ho.1 (by omega) hfull).1 ho with hneeds | ⟨hnone, hedge⟩
    · exact hn hneeds
    · -- the bytes before the cursor would fill the window, but a byte follows them in it
      have := hno hnone
      omega

/-- If a window with only bytes that have to be kept is full and does not tell the answer, there is
no token. -/
theorem Reads.lookup_of_isFull (h : t.Reads l) {p : Pattern} (hp : p.Streamable)
    {st : MatchStatus} (hf : t.window.isFull = true)
    (hst : p.matchAt t.window.unconsumed 0 false = .ok st)
    (huntold : st = .needsInput ∨ st = .noMatch ∧ t.window.cursor = t.window.limit) :
    (t.whole l).lookup p = .error t.fullError := by
  obtain ⟨hret, hlim⟩ := h.ok.isFull_iff.1 hf
  have hold := oldest_whole h.ok l
  have hpos : (t.whole l).position = t.window.discarded + t.window.cursor := rfl
  have hcap : (t.whole l).capacity = t.window.capacity := rfl
  have hle : t.window.discarded + t.window.limit ≤ (t.whole l).stream.length := h.le_length
  have hcursor := h.ok.cursor_le
  have hpinned : t.window.pinned = (t.whole l).position - (t.whole l).oldest := h.ok.pinned_eq
  have hroom : (t.whole l).oldest + (t.whole l).capacity - (t.whole l).position =
      t.window.limit - t.window.cursor := by omega
  rw [h.unconsumed_eq, ← hroom] at hst
  have ho : (t.whole l).Overflows p := by
    refine (Whole.overflows_iff hp (by omega) (by omega) hst).2 ?_
    exact huntold.imp id fun hedge => ⟨hedge.1, by omega⟩
  have herror : (t.whole l).overflow = t.fullError := by
    have hzero : (t.whole l).position = (t.whole l).oldest ↔ t.window.pinned = 0 := by omega
    unfold Whole.overflow fullError
    simp only [hzero, hpinned]
    rfl
  unfold Whole.lookup
  rw [if_pos ho, herror]

/-- A request is judged by the answer for the bytes in the window that are not consumed. -/
theorem Reads.verdict_cases (h : t.Reads l) {p : Pattern} (hp : p.Streamable) :
    ∃ st, p.matchAt t.window.unconsumed 0 t.exhausted = .ok st ∧
      ((∃ n, st = .matched n ∧ t.verdict p = .found (t.window.cursor + n)) ∨
        (st = .noMatch ∧ (t.exhausted = true ∨ t.window.cursor < t.window.limit) ∧
          t.verdict p = .absent ((t.whole l).mismatch p)) ∨
        ((st = .needsInput ∨ st = .noMatch ∧ t.window.cursor = t.window.limit) ∧
          t.verdict p = .wantsMore)) := by
  obtain ⟨st, hst⟩ := hp.total t.window.unconsumed t.exhausted
  have hfilled : p.matchAt t.window.filled t.window.cursor t.exhausted =
      .ok (st.shift t.window.cursor) := by
    rw [hp.shift _ _ _ h.ok.cursor_le]
    exact congrArg (Except.map _) hst
  refine ⟨st, hst, ?_⟩
  unfold verdict
  rw [hfilled]
  cases st with
  | matched n => exact .inl ⟨n, rfl, rfl⟩
  | needsInput => exact .inr (.inr ⟨.inl rfl, rfl⟩)
  | noMatch =>
    have hpos : (t.whole l).position = t.window.discarded + t.window.cursor := rfl
    have hstream : (t.whole l).stream.length = l.length := rfl
    have hcursor := h.ok.cursor_le
    have hle := h.le_length
    by_cases hedge : t.window.cursor = t.window.limit
    · cases he : t.exhausted with
      | true =>
        have hend : (t.whole l).position = (t.whole l).stream.length := by
          have := (h.ended he).1
          omega
        refine .inr (.inl ⟨rfl, .inl rfl, ?_⟩)
        unfold Whole.mismatch
        rw [if_pos hend]
        simp [MatchStatus.shift, Window.isDrained, hedge]
      | false =>
        refine .inr (.inr ⟨.inr ⟨rfl, hedge⟩, ?_⟩)
        simp [MatchStatus.shift, Window.isDrained, hedge]
    · have hinside : (t.whole l).position ≠ (t.whole l).stream.length := by omega
      refine .inr (.inl ⟨rfl, .inr (by omega), ?_⟩)
      unfold Whole.mismatch
      rw [if_neg hinside]
      simp [MatchStatus.shift, Window.isDrained, hedge]

/-- The answer that a request comes to is the answer of the whole stream. -/
theorem Settles.lookup {p : Pattern} (hp : p.Streamable) {t t' : Tokenizer σ}
    {r : Except TokenError Nat} (hs : Settles p t r t') (h : t.Reads l) :
    t'.Reads l ∧ (t'.phase = .ready ∨ t'.phase = .needsInput) ∧
      r.map (t'.window.discarded + ·) = (t.whole l).lookup p := by
  induction hs with
  | @found t stop hv =>
    refine ⟨h.of_eq rfl rfl rfl, .inl rfl, ?_⟩
    obtain ⟨st, hst, ⟨n, rfl, hv'⟩ | ⟨-, -, hv'⟩ | ⟨-, hv'⟩⟩ := h.verdict_cases hp <;>
      rw [hv'] at hv <;> cases hv
    rw [h.lookup_eq hp hst (.inr ⟨MatchStatus.noConfusion, MatchStatus.noConfusion⟩)]
    exact congrArg Except.ok (Nat.add_assoc _ _ _).symm
  | @absent t e hv =>
    refine ⟨h.of_eq rfl rfl rfl, .inl rfl, ?_⟩
    obtain ⟨st, hst, ⟨n, rfl, hv'⟩ | ⟨rfl, htold, hv'⟩ | ⟨-, hv'⟩⟩ := h.verdict_cases hp <;>
      rw [hv'] at hv <;> cases hv
    rw [h.lookup_eq hp hst (htold.imp id fun hlt => ⟨MatchStatus.noConfusion, fun _ => hlt⟩)]
    rfl
  | @stuck t e hv =>
    obtain ⟨st, -, ⟨n, -, hv'⟩ | ⟨-, -, hv'⟩ | ⟨-, hv'⟩⟩ := h.verdict_cases hp <;>
      rw [hv'] at hv <;> cases hv
  | @full t hv hf =>
    obtain ⟨st, hst, ⟨n, -, hv'⟩ | ⟨-, -, hv'⟩ | ⟨huntold, -⟩⟩ := h.verdict_cases hp
    · rw [hv'] at hv
      cases hv
    · rw [hv'] at hv
      cases hv
    · rw [exhausted_of_wantsMore hv] at hst
      exact ⟨h.of_eq rfl rfl rfl, .inr rfl,
        (h.lookup_of_isFull hp hf hst huntold).symm⟩
  | @failed t t' e hv hf hr =>
    have hphase : Reads { t with phase := .needsInput } l := h.of_eq rfl rfl rfl
    have hrefill := hphase.refill hf (exhausted_of_wantsMore hv)
    rw [hr] at hrefill
    cases hrefill.1
  | @again t t' t'' r hv hf hr hs ih =>
    have hplace : SamePlace t { t with phase := .needsInput } := .of_eq rfl rfl rfl
    have hphase : Reads { t with phase := .needsInput } l := h.of_eq rfl rfl rfl
    have hsame := ok_refill hphase.ok
    have hrefill := hphase.refill hf (exhausted_of_wantsMore hv)
    rw [hr] at hsame hrefill
    rw [← (hplace.trans hsame.2).whole_eq l]
    exact ih hrefill.2

/-! ### Requests -/

/-- What a request finds is what the whole stream has. -/
theorem Serves.find (h : t.Serves l) {p : Pattern} (hp : p.Streamable) :
    (t.find p).2.Serves l ∧
      (t.find p).1.map ((t.find p).2.window.discarded + ·) = (t.whole l).lookup p := by
  have hserves : ∀ t' : Tokenizer σ, t'.Reads l ∧ (t'.phase = .ready ∨ t'.phase = .needsInput) →
      t'.Serves l := by
    rintro t' ⟨hreads, hphase⟩
    refine ⟨hreads, ?_, ?_⟩ <;> rcases hphase with hphase | hphase <;> rw [hphase] <;>
      exact fun hno => by cases hno
  have hfirst : t.phase = .uninitialized → t.fill.1 = .ok () ∧ t.fill.2.Reads l := by
    intro hp
    obtain ⟨hzero, he⟩ := h.untouched hp
    exact h.fill (Window.room_pos_of_limit h.capacity_pos hzero) he
  rcases find_cases h.ok p with ⟨hc, -⟩ | ⟨hu, e, t', hfill, -⟩ | ⟨t', hfill | ⟨-, rfl⟩, hs⟩
  · exact absurd hc h.not_closed
  · have := (hfirst hu).1
    rw [hfill] at this
    cases this
  · have hreads := (hfirst hfill.1).2
    have hsame := (ok_fill h.ok).2
    rw [hfill.2] at hreads hsame
    obtain ⟨hreads', hphase, hlookup⟩ := hs.lookup hp hreads
    rw [hsame.whole_eq l] at hlookup
    exact ⟨hserves _ ⟨hreads', hphase⟩, hlookup⟩
  · obtain ⟨hreads', hphase, hlookup⟩ := hs.lookup hp h.toReads
    exact ⟨hserves _ ⟨hreads', hphase⟩, hlookup⟩

/-- Bytes of the window are bytes of the stream. -/
theorem Reads.slice_eq (h : t.Reads l) {stop : Nat} (hs : stop ≤ t.window.limit) :
    (t.window.filled.take stop).drop t.window.cursor =
      (l.take (t.window.discarded + stop)).drop t.position := by
  rw [h.filled_eq, List.take_take, Nat.min_eq_left hs, List.take_drop, List.drop_drop]
  rfl

/-- A request consumes what the whole stream has. -/
theorem Serves.rawNext (h : t.Serves l) {p : Pattern} (hp : p.Streamable) :
    (t.rawNext p).2.Serves l ∧ (t.rawNext p).1 = ((t.whole l).rawNext p).1 ∧
      (t.rawNext p).2.whole l = ((t.whole l).rawNext p).2 := by
  obtain ⟨hserves, hlookup⟩ := h.find hp
  obtain ⟨-, hsame, hstop⟩ := samePlace_find h.ok p
  rcases rawNext_cases t p with ⟨e, t', hf, hr⟩ | ⟨stop, t', e, hf, htake, hr⟩ |
    ⟨stop, t', token, w, hf, htake, hr⟩ <;> rw [hf] at hserves hlookup hsame hstop <;> rw [hr]
  · rw [Whole.rawNext_of_error (e := e) hlookup.symm]
    exact ⟨hserves, rfl, hsame.whole_eq l⟩
  -- what is taken is a token of the stream, and so a text
  all_goals
    have hlookup : (t.whole l).lookup p = .ok (t'.window.discarded + stop) := hlookup.symm
    have hslice := hserves.slice_eq (hstop stop rfl)
    rw [hsame.position_eq] at hslice
    obtain ⟨text, htext⟩ := Option.isSome_iff_exists.1 (Whole.isSome_text?_of_lookup hlookup)
    have htext' : Utf8.text? ((t'.window.filled.take stop).drop t'.window.cursor) = some text :=
      hslice ▸ htext
    unfold Window.take at htake
    rw [htext'] at htake
    cases htake
  rw [Whole.rawNext_of_ok hlookup htext]
  have hwindow := hserves.withWindow (hserves.ok.withCursor (hstop stop rfl)) rfl rfl rfl
  refine ⟨hwindow.of_eq rfl rfl rfl rfl, rfl, ?_⟩
  rw [← hsame.whole_eq l]
  rfl

end Tokenizer

end StreamParser
