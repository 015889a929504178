import StreamParser.Proofs.Tokenizer.Mirror
import StreamParser.Proofs.Tokenizer.Operations

/-!
# What a source has delivered

* `Source.Mimics f` says that the sources `s` and `f s` answer alike.  A tokenizer sees nothing of its
  source but the answers, so it does the same over both: `Tokenizer.after_map`.
* `Recorded` is a source that writes down the bytes that it delivers, and whether it has always told
  their number honestly.  `Tokenizer.record` is a tokenizer over such a source, and
  `Tokenizer.bare_after_record` says that it does what it would do without the record.
* `Tokenizer.Stores` is the invariant of a tokenizer whose source is honest: what the window holds are
  the last of the bytes that were delivered, from the first that was not discarded on.
-/

namespace StreamParser

variable {σ τ : Type} [Source σ] [Source τ]

/-! ### Sources that answer alike -/

/-- The source `f s` answers as `s` does, and goes on as `s` goes on. -/
structure Source.Mimics (f : σ → τ) : Prop where
  read_eq : ∀ s room, Source.read (f s) room =
    ((Source.read s room).1, f (Source.read s room).2)
  close_eq : ∀ s, Source.close (f s) = ((Source.close s).1, f (Source.close s).2)
  patience_eq : ∀ s, Source.patience (f s) = Source.patience s

namespace Tokenizer

variable {f : σ → τ}

/-- The same tokenizer over another source. -/
def map (f : σ → τ) (t : Tokenizer σ) : Tokenizer τ :=
  ⟨f t.source, t.window, t.phase, t.exhausted, t.cache, t.skip, t.events⟩

theorem read_map (hf : Source.Mimics f) (t : Tokenizer σ) :
    (t.map f).read = (t.read.1, t.read.2.map f) := by
  have hread := hf.read_eq t.source t.window.room
  unfold read
  simp only [map, hread]
  cases (Source.read t.source t.window.room).1 with
  | read bytes count => rfl
  | finished => rfl
  | failed e => rfl

theorem fill_map (hf : Source.Mimics f) (t : Tokenizer σ) :
    (t.map f).fill = (t.fill.1, t.fill.2.map f) := by
  have hread := read_map hf (t.note [.initialFill t.window.capacity])
  have hnote : (t.map f).note [.initialFill (t.map f).window.capacity] =
      (t.note [.initialFill t.window.capacity]).map f := rfl
  unfold fill
  rw [hnote, hread]
  rcases (t.note [.initialFill t.window.capacity]).read with ⟨e | _, t'⟩
  · rfl
  · rfl

theorem refill_map (hf : Source.Mimics f) (t : Tokenizer σ) :
    (t.map f).refill = (t.refill.1, t.refill.2.map f) :=
  read_map hf t.compacted

/-- A tokenizer takes the steps of a request together with the same tokenizer over the other
source. -/
theorem mirrors_map (hf : Source.Mimics f) :
    Mirrors fun (t : Tokenizer σ) (u : Tokenizer τ) => u = t.map f where
  phase_eq := by
    rintro t u rfl
    rfl
  effort_eq := by
    rintro t u rfl
    exact congrArg (t.window.capacity + · + 2) (hf.patience_eq t.source)
  verdict_eq := by
    rintro t u rfl p
    rfl
  isFull_eq := by
    rintro t u rfl
    rfl
  capacity_eq := by
    rintro t u rfl
    rfl
  pinned_eq := by
    rintro t u rfl
    rfl
  note := by
    rintro t u l rfl
    rfl
  enter := by
    rintro t u phase - rfl
    rfl
  fill := by
    rintro t u rfl -
    exact Prod.mk.inj (fill_map hf t)
  refill := by
    rintro t u rfl - - -
    exact Prod.mk.inj (refill_map hf t)

theorem find_map (hf : Source.Mimics f) (t : Tokenizer σ) (p : Pattern) :
    (t.map f).find p = ((t.find p).1, (t.find p).2.map f) := by
  obtain ⟨hresult, hafter⟩ := (mirrors_map hf).find rfl p
  exact Prod.ext hresult hafter

theorem rawNext_map (hf : Source.Mimics f) (t : Tokenizer σ) (p : Pattern) :
    (t.map f).rawNext p = ((t.rawNext p).1, (t.rawNext p).2.map f) := by
  unfold rawNext
  rw [find_map hf t p]
  rcases t.find p with ⟨e | stop, t'⟩
  · rfl
  · have hwindow : (t'.map f).window = t'.window := rfl
    simp only [hwindow]
    rcases t'.window.take stop with e | ⟨token, w⟩
    · rfl
    · rfl

theorem skipAhead_map (hf : Source.Mimics f) (t : Tokenizer σ) :
    (t.map f).skipAhead = (t.skipAhead.1, t.skipAhead.2.map f) := by
  have hskip : (t.map f).skip = t.skip := rfl
  unfold skipAhead
  rw [hskip]
  cases t.skip with
  | none => rfl
  | some p =>
    simp only [rawNext_map hf t p]
    rcases t.rawNext p with ⟨e | token, t'⟩
    · by_cases he : e.isRecoverable = true
      · simp only [if_pos he]
      · simp only [if_neg he]
    · rfl

theorem nextPattern_map (hf : Source.Mimics f) (t : Tokenizer σ) (p : Pattern) :
    (t.map f).nextPattern p = ((t.nextPattern p).1, (t.nextPattern p).2.map f) := by
  unfold nextPattern
  rw [skipAhead_map hf t]
  rcases t.skipAhead with ⟨e | _, t'⟩
  · rfl
  · exact rawNext_map hf t' p

omit [Source σ] [Source τ] in
theorem pattern_map (f : σ → τ) (t : Tokenizer σ) (regex : String) :
    (t.map f).pattern regex = ((t.pattern regex).1, (t.pattern regex).2.map f) := by
  have hcache : (t.map f).cache = t.cache := rfl
  unfold pattern
  rw [hcache]
  rcases t.cache.get regex with ⟨e | e, cache, events⟩
  · rfl
  · rfl

theorem next_map (hf : Source.Mimics f) (t : Tokenizer σ) (regex : String) :
    (t.map f).next regex = ((t.next regex).1, (t.next regex).2.map f) := by
  unfold next
  rw [pattern_map f t regex]
  rcases t.pattern regex with ⟨e | p, t'⟩
  · rfl
  · exact nextPattern_map hf t' p

theorem hasNext_map (hf : Source.Mimics f) (t : Tokenizer σ) (regex : String) :
    (t.map f).hasNext regex = ((t.hasNext regex).1, (t.hasNext regex).2.map f) := by
  unfold hasNext
  rw [pattern_map f t regex]
  rcases t.pattern regex with ⟨e | p, t₁⟩
  · rfl
  · simp only [skipAhead_map hf t₁]
    rcases t₁.skipAhead with ⟨e | _, t₂⟩
    · rfl
    · simp only [find_map hf t₂ p]
      rcases t₂.find p with ⟨e | stop, t₃⟩
      · rfl
      · rfl

theorem close_map (hf : Source.Mimics f) (t : Tokenizer σ) :
    (t.map f).close = (t.close.1, t.close.2.map f) := by
  have hclose := hf.close_eq t.source
  have hphase : (t.map f).phase = t.phase := rfl
  unfold close
  rw [hphase]
  by_cases hp : t.phase = .closed
  · rw [if_pos hp, if_pos hp]
  · rw [if_neg hp, if_neg hp]
    simp only [map, note, hclose]
    cases (Source.close t.source).1 with
    | none => rfl
    | some e => rfl

omit [Source σ] [Source τ] in
theorem useSkipRegex_map (f : σ → τ) (t : Tokenizer σ) (regex : String) :
    (t.map f).useSkipRegex regex = ((t.useSkipRegex regex).1, (t.useSkipRegex regex).2.map f) := by
  unfold useSkipRegex
  rw [pattern_map f t regex]
  rcases t.pattern regex with ⟨e | p, t'⟩
  · rfl
  · rfl

omit [Source σ] [Source τ] in
theorem reset_map (f : σ → τ) (t : Tokenizer σ) (m : Mark) :
    (t.map f).reset m = ((t.reset m).1, (t.reset m).2.map f) := by
  have hholds : (t.map f).holds m = t.holds m := rfl
  have hwindow : (t.map f).window = t.window := rfl
  unfold reset
  rw [hholds, hwindow]
  by_cases hm : t.holds m = true
  · rw [if_pos hm, if_pos hm]
    rcases t.window.reset m.offset with e | w
    · rfl
    · rfl
  · rw [if_neg hm, if_neg hm]

omit [Source σ] [Source τ] in
theorem commit_map (f : σ → τ) (t : Tokenizer σ) : (t.map f).commit = t.commit.map f := by
  have hwindow : (t.map f).window = t.window := rfl
  unfold commit
  rw [hwindow]
  by_cases hdropped : t.window.marks.length = 0
  · simp only [if_pos hdropped]
    rfl
  · simp only [if_neg hdropped]
    rfl

end Tokenizer

/-- The same client with a tokenizer over another source. -/
def Client.map (f : σ → τ) (c : Client (Tokenizer σ)) : Client (Tokenizer τ) :=
  ⟨c.respondent.map f, c.marks⟩

theorem Client.perform_map {f : σ → τ} (hf : Source.Mimics f) (c : Client (Tokenizer σ))
    (op : Operation) : (c.map f).perform op = (c.perform op).map f := by
  -- an operation that gives no mark leaves a client with the tokenizer after it
  have hclient : ∀ {α : Type} {x : α × Tokenizer τ} {y : α × Tokenizer σ}, x = (y.1, y.2.map f) →
      (⟨x.2, c.marks⟩ : Client (Tokenizer τ)) = map f ⟨y.2, c.marks⟩ := by
    rintro α x y rfl
    rfl
  cases op with
  | close => exact hclient (Tokenizer.close_map hf _)
  | useSkip p => rfl
  | useSkipRegex regex => exact hclient (Tokenizer.useSkipRegex_map f _ regex)
  | request r =>
    cases r with
    | next regex => exact hclient (Tokenizer.next_map hf _ regex)
    | nextPattern p => exact hclient (Tokenizer.nextPattern_map hf _ p)
    | rawNext p => exact hclient (Tokenizer.rawNext_map hf _ p)
    | hasNext regex => exact hclient (Tokenizer.hasNext_map hf _ regex)
    | mark => rfl
    | commit => exact congrArg (Client.mk · c.marks) (Tokenizer.commit_map f c.respondent)
    | reset k =>
      show ((c.map f).ask (.reset k)).2 = (c.ask (.reset k)).2.map f
      cases hk : c.marks[k]? with
      | none => rw [(ask_of_none hk).1, (ask_of_none (c := c.map f) hk).1]
      | some m =>
        rw [(ask_of_some hk).1, (ask_of_some (c := c.map f) hk).1]
        exact hclient (Tokenizer.reset_map f _ m)
    | release k =>
      show ((c.map f).ask (.release k)).2 = (c.ask (.release k)).2.map f
      cases hk : c.marks[k]? with
      | none => rw [(ask_of_none hk).2, (ask_of_none (c := c.map f) hk).2]
      | some m =>
        rw [(ask_of_some hk).2, (ask_of_some (c := c.map f) hk).2]
        rfl

theorem Client.performAll_map {f : σ → τ} (hf : Source.Mimics f) (c : Client (Tokenizer σ))
    (ops : List Operation) : (c.map f).performAll ops = (c.performAll ops).map f := by
  induction ops generalizing c with
  | nil => rfl
  | cons op ops ih => rw [performAll_cons, performAll_cons, perform_map hf, ih]

/-- Over sources that answer alike a tokenizer does the same. -/
theorem Tokenizer.after_map {f : σ → τ} (hf : Source.Mimics f) (t : Tokenizer σ)
    (ops : List Operation) : (t.map f).after ops = (t.after ops).map f :=
  congrArg Client.respondent (Client.performAll_map hf (Client.start t) ops)

/-! ### Sources that write down what they deliver -/

/-- The bytes that a reply delivers, as many as it claims. -/
def Reply.delivered : Reply → List UInt8
  | read bytes count => bytes.take count
  | _ => []

/-- A reply claims no more bytes than it has written, nor than there was room for. -/
def Reply.isHonest (room : Nat) : Reply → Bool
  | read bytes count => count ≤ bytes.length && count ≤ room
  | _ => true

/-- A source that writes down what it delivers. -/
structure Recorded (σ : Type) where
  source : σ
  /-- The bytes that were delivered so far. -/
  delivered : List UInt8
  /-- All replies so far were honest. -/
  honest : Bool

instance : Source (Recorded σ) where
  read r room :=
    let (reply, s) := Source.read r.source room
    (reply, ⟨s, r.delivered ++ reply.delivered, r.honest && reply.isHonest room⟩)
  close r :=
    let (e, s) := Source.close r.source
    (e, { r with source := s })
  patience r := Source.patience r.source
  patience_read r room h := Source.patience_read r.source room h

/-- The record does not change the answers. -/
theorem Recorded.mimics : Source.Mimics (Recorded.source : Recorded σ → σ) where
  read_eq _ _ := rfl
  close_eq _ := rfl
  patience_eq _ := rfl

theorem Recorded.read_eq {r s : Recorded σ} {room : Nat} {reply : Reply}
    (h : Source.read r room = (reply, s)) :
    s.delivered = r.delivered ++ reply.delivered ∧
      s.honest = (r.honest && reply.isHonest room) := by
  cases h
  exact ⟨rfl, rfl⟩

theorem Recorded.close_eq (r : Recorded σ) :
    (Source.close r).2.delivered = r.delivered ∧ (Source.close r).2.honest = r.honest :=
  ⟨rfl, rfl⟩

namespace Tokenizer

/-- The tokenizer, with a record of what its source delivers from now on. -/
def record (t : Tokenizer σ) : Tokenizer (Recorded σ) := t.map (⟨·, [], true⟩)

/-- The tokenizer without the record. -/
def bare (t : Tokenizer (Recorded σ)) : Tokenizer σ := t.map Recorded.source

/-- With a record the tokenizer does what it does without. -/
theorem bare_after_record (t : Tokenizer σ) (ops : List Operation) :
    (t.record.after ops).bare = t.after ops :=
  (after_map Recorded.mimics t.record ops).symm

theorem window_after_record (t : Tokenizer σ) (ops : List Operation) :
    (t.record.after ops).window = (t.after ops).window :=
  congrArg window (bare_after_record t ops)

/-! ### What the window holds -/

/-- If the source was honest, the window holds the last of the bytes that were delivered. -/
def Stores (t : Tokenizer (Recorded σ)) : Prop :=
  t.source.honest = true →
    t.window.filled = t.source.delivered.drop t.window.discarded ∧
      t.source.delivered.length = t.window.discarded + t.window.limit

omit [Source σ] in
/-- Neither the cursor nor the marks matter. -/
theorem Stores.of_eq {t t' : Tokenizer (Recorded σ)} (h : t.Stores)
    (hf : t'.window.filled = t.window.filled) (hd : t'.window.discarded = t.window.discarded)
    (hs : t'.source.delivered = t.source.delivered) (hh : t'.source.honest = t.source.honest) :
    t'.Stores := by
  intro hhonest
  unfold Window.limit
  rw [hf, hd, hs]
  exact h (hh ▸ hhonest)

omit [Source σ] in
theorem Stores.compact {t : Tokenizer (Recorded σ)} (h : t.Stores) (ht : t.window.Ok) :
    Stores { t with window := t.window.compact } := by
  intro hhonest
  obtain ⟨hfilled, hlength⟩ := h hhonest
  have hretained := ht.retained_le_limit
  have hlimit := Window.limit_compact t.window
  constructor
  · show t.window.filled.drop t.window.retained =
      t.source.delivered.drop (t.window.discarded + t.window.retained)
    rw [hfilled, List.drop_drop]
  · show t.source.delivered.length = t.window.discarded + t.window.retained + t.window.compact.limit
    omega

/-- Of an honest reply the window takes up just what it delivers. -/
theorem filled_receive_of_isHonest {w : Window} {bytes : List UInt8} {count : Nat}
    (h : (Reply.read bytes count).isHonest w.room = true) :
    (w.receive bytes count).filled = w.filled ++ (Reply.read bytes count).delivered := by
  simp only [Reply.isHonest, Bool.and_eq_true, decide_eq_true_eq] at h
  obtain ⟨hbytes, hroom⟩ := h
  have hcount : min count w.room = count := Nat.min_eq_left hroom
  have htake : count ≤ (bytes.take w.room).length := by
    rw [List.length_take]
    omega
  unfold Window.receive Reply.delivered
  simp only [hcount]
  rw [List.take_append_of_le_length htake, List.take_take, Nat.min_eq_left hroom,
    Nat.sub_eq_zero_of_le (by rw [List.length_append]; omega), List.replicate_zero,
    List.append_nil]

variable {t t' u : Tokenizer (Recorded σ)}

omit [Source σ] in
/-- Nothing was delivered to a fresh tokenizer. -/
theorem Fresh.stores {t : Tokenizer σ} {s : σ} (h : t.Fresh s) : t.record.Stores := by
  intro _
  have hwindow : t.record.window = .empty t.window.capacity := h.window_eq
  rw [hwindow]
  exact ⟨rfl, rfl⟩

theorem Stores.read (h : t.Stores) : t.read.2.Stores := by
  rcases read_cases t with ⟨bytes, count, s, hs, hr⟩ | ⟨s, hs, hr⟩ | ⟨e, s, hs, hr⟩ <;> rw [hr] <;>
    obtain ⟨hdelivered, hhonest⟩ := Recorded.read_eq hs
  · intro hyes
    have hyes : s.honest = true := hyes
    rw [hhonest, Bool.and_eq_true] at hyes
    obtain ⟨hfilled, hlength⟩ := h hyes.1
    have hreceived := filled_receive_of_isHonest hyes.2
    constructor
    · show (t.window.receive bytes count).filled = s.delivered.drop t.window.discarded
      rw [hreceived, hdelivered, hfilled, List.drop_append_of_le_length (by omega)]
    · show s.delivered.length = t.window.discarded + (t.window.receive bytes count).filled.length
      rw [hreceived, hdelivered, List.length_append, List.length_append, hlength, Nat.add_assoc]
      rfl
  · exact h.of_eq rfl rfl (hdelivered.trans (List.append_nil _)) (hhonest.trans (Bool.and_true _))
  · exact h.of_eq rfl rfl (hdelivered.trans (List.append_nil _)) (hhonest.trans (Bool.and_true _))

/-- A step keeps the window to what was delivered. -/
theorem Step.stores (hstep : Step t t') (ht : t.window.Ok) (h : t.Stores) : t'.Stores := by
  cases hstep with
  | aside hw hs =>
    refine h.of_eq ?_ ?_ ?_ ?_
    · rw [hw]
    · rw [hw]
    · rw [hs]
    · rw [hs]
  | compact => exact h.compact ht
  | read => exact h.read
  | take hv hw =>
    rw [Window.eq_of_take hw]
    exact h.of_eq rfl rfl rfl rfl

/-- So does every operation. -/
theorem Occurs.stores (hu : Occurs t u) (ht : t.window.Ok) (h : t.Stores) : u.Stores := by
  induction hu with
  | start => exact h
  | step hu hstep ih => exact hstep.stores (hu.ok ht) ih
  | mark hu ih => exact ih.of_eq rfl rfl rfl rfl
  | @reset u hu m ih =>
    rcases reset_cases u m with ⟨n, hr⟩ | ⟨e, hr⟩ <;> rw [hr]
    · exact ih.of_eq rfl rfl rfl rfl
    · exact ih
  | release hu m ih => exact ih.of_eq rfl rfl rfl rfl
  | @commit u hu ih =>
    have hwindow := window_commit u
    have hsource := source_commit u
    refine ih.of_eq ?_ ?_ ?_ ?_
    · rw [hwindow]
      rfl
    · rw [hwindow]
      rfl
    · rw [hsource]
    · rw [hsource]
  | @close u hu ih =>
    have hwindow := window_close u
    have hsource : u.close.2.source.delivered = u.source.delivered ∧
        u.close.2.source.honest = u.source.honest := by
      rcases source_close u with hs | hs <;> rw [hs]
      · exact ⟨rfl, rfl⟩
      · exact Recorded.close_eq u.source
    refine ih.of_eq ?_ ?_ hsource.1 hsource.2
    · rw [hwindow]
    · rw [hwindow]

end Tokenizer

end StreamParser
