import StreamParser.Proofs.Tokenizer.Feed

/-!
# Every request comes to an end

A request is judged again after each read, as long as more bytes are wanted.  Nothing bounds the
number of reads beforehand if the source is a feed; but a read with bytes leaves less room beside the
bytes that have to be kept, and without bytes a feed that rests answers only finitely often in a row.

* `Window.kept` is the number of bytes that have to be kept; it grows with every read of bytes.
* `Feed.Fills w s calls s'` says of the calls of a request that no more of them deliver than the
  window has room for, and that the feed tells its end at most once.  A request over a source makes
  such calls (`Tokenizer.fills_rawNext`).
* `Tokenizer.Answered p t r u calls`: from `t` the request for `p` is settled with `r` after `calls`,
  for every ration that covers them.  `Tokenizer.exists_answered` says that there are such calls.
* `Tokenizer.rawNext_ends` is the main statement.
-/

namespace StreamParser

/-- The number of bytes in the window that have to be kept. -/
def Window.kept (w : Window) : Nat := w.limit - w.retained

namespace Window

variable {w : Window}

/-- Compacting keeps what has to be kept, and nothing else. -/
theorem Ok.kept_compact (h : w.Ok) : w.compact.kept = w.kept := by
  unfold kept
  rw [h.retained_compact, limit_compact, Nat.sub_zero]

theorem Ok.kept_le (h : w.Ok) : w.kept ≤ w.capacity := Nat.le_trans (Nat.sub_le _ _) h.limit_le

/-- If all has to be kept, so have the bytes that are taken up. -/
theorem kept_receive (h : w.retained = 0) (bytes : List UInt8) (count : Nat) :
    (w.receive bytes count).kept = w.kept + min count w.room := by
  have hretained : (w.receive bytes count).retained = 0 := h
  unfold kept
  rw [hretained, h, limit_receive]
  rfl

/-- In a window without bytes there is nothing to be kept or dropped. -/
theorem Ok.retained_of_limit (h : w.Ok) (hl : w.limit = 0) : w.retained = 0 :=
  Nat.le_zero.1 (hl ▸ h.retained_le_limit)

end Window

variable {σ : Type} [Feed σ]

/-! ### The calls of a request -/

namespace Feed

/-- The calls by which the feed `s` comes to be read into the window `w`: no more of them deliver
than there is room for beside the bytes that have to be kept, and the end is told at most once. -/
structure Fills (w : Window) (s : σ) (calls : List Call) (s' : σ) : Prop where
  answers : Answers s calls s'
  delivers_le : calls.countP Call.delivers + w.kept ≤ w.capacity
  ends_le : calls.countP Call.endsReading ≤ 1

variable {w : Window} {s s' s'' : σ} {calls : List Call}

theorem Fills.nil (h : w.Ok) (s : σ) : Fills w s [] s :=
  ⟨.nil s, (Nat.zero_add _).symm ▸ h.kept_le, Nat.zero_le 1⟩

/-- A read with bytes uses up some of the room, and one without bytes delivers nothing. -/
theorem Fills.cons {bytes : List UInt8} {count : Nat} (hretained : w.retained = 0)
    (hroom : 0 < w.room) (hread : Feed.read s w.room = (.read bytes count, s'))
    (h : Fills (w.receive bytes count) s' calls s'') :
    Fills w s (.read w.room (.read bytes count) :: calls) s'' where
  answers := .cons hroom hread h.answers
  delivers_le := by
    have hdelivers := h.delivers_le
    rw [Window.kept_receive hretained] at hdelivers
    have hdelivers : calls.countP Call.delivers + (w.kept + min count w.room) ≤ w.capacity :=
      hdelivers
    rw [List.countP_cons]
    simp only [Call.delivers, decide_eq_true_eq]
    split <;> omega
  ends_le := by
    rw [List.countP_cons]
    exact h.ends_le

/-- Other answers end the reads of a request. -/
theorem Fills.last {reply : Reply} (h : w.Ok) (hroom : 0 < w.room)
    (hread : Feed.read s w.room = (reply, s'))
    (hreply : (Call.read w.room reply).delivers = false) :
    Fills w s [.read w.room reply] s' where
  answers := .cons hroom hread (.nil s')
  delivers_le := by
    rw [List.countP_singleton, hreply]
    exact (Nat.zero_add _).symm ▸ h.kept_le
  ends_le := List.countP_le_length

/-- Reads into a compact window are reads that follow the compacting. -/
theorem Fills.of_compact (hw : w.Ok) (h : Fills w.compact s calls s') : Fills w s calls s' where
  answers := h.answers
  delivers_le := hw.kept_compact ▸ h.delivers_le
  ends_le := h.ends_le

end Feed

namespace Tokenizer

variable {p : Pattern} {t u : Tokenizer σ} {r : Except TokenError Nat} {calls : List Call}

/-- From `t` the request for `p` comes to the answer `r` and to `u`, after `calls`, if the ration
covers them; what is over of the ration is left. -/
structure Answered (p : Pattern) (t : Tokenizer σ) (r : Except TokenError Nat) (u : Tokenizer σ)
    (calls : List Call) : Prop where
  fills : Feed.Fills t.window t.source calls u.source
  settles : ∀ {τ : Type} [Source τ] {f : σ → Nat → List Call → τ}, Feed.IsBehind f → ∀ k before,
    Settles p (t.atop f (rationOf calls + k) before) r (u.atop f k (before ++ calls))

omit [Feed σ] in
/-- A request that wants no more bytes, or has no room for them, is answered without a read. -/
theorem exists_settles_of_rest (h : t.verdict p = .wantsMore → t.window.isFull = true) :
    ∃ (r : Except TokenError Nat) (u : Tokenizer σ), u.source = t.source ∧
      ∀ {τ : Type} [Source τ] (f : σ → Nat → List Call → τ) k before,
        Settles p (t.atop f k before) r (u.atop f k before) := by
  cases hv : t.verdict p with
  | found stop =>
    refine ⟨.ok stop, { t with phase := .ready }, rfl, fun f k before => ?_⟩
    exact .found (t := t.atop f k before) hv
  | absent e =>
    refine ⟨.error e, { t with phase := .ready }, rfl, fun f k before => ?_⟩
    exact .absent (t := t.atop f k before) hv
  | stuck e =>
    exact ⟨.error (.pattern e), t, rfl, fun f k before => .stuck (t := t.atop f k before) hv⟩
  | wantsMore =>
    refine ⟨.error t.fullError, ({ t with phase := .needsInput } : Tokenizer σ).note
      [.noRoom p.source t.window.capacity t.window.pinned], rfl, fun f k before => ?_⟩
    exact .full (t := t.atop f k before) hv (h hv)

omit [Feed σ] in
/-- When the end was told, nothing more is wanted. -/
theorem rest_of_exhausted (h : t.exhausted = true) :
    t.verdict p = .wantsMore → t.window.isFull = true := fun hv =>
  nomatch h.symm.trans (exhausted_of_wantsMore hv)

/-- The tokenizer has made room and is about to read. -/
def awaiting (t : Tokenizer σ) : Tokenizer σ := compacted { t with phase := .needsInput }

/-- A request is answered if it is whatever bytes it reads, if it reads any. -/
theorem exists_answered_of_reads (hok : t.window.Ok)
    (h : ∀ bytes count s, 0 < t.awaiting.window.room →
      Feed.read t.source t.awaiting.window.room = (.read bytes count, s) →
        ∃ r u calls, Answered p (t.awaiting.fed bytes count s) r u calls) :
    ∃ r u calls, Answered p t r u calls := by
  by_cases hrest : t.verdict p = .wantsMore → t.window.isFull = true
  · obtain ⟨r, u, hsource, hsettles⟩ := exists_settles_of_rest hrest
    refine ⟨r, u, [], hsource ▸ .nil hok t.source, fun _ k before => ?_⟩
    rw [List.append_nil, rationOf_nil]
    exact hsettles _ k before
  · obtain ⟨hv, hf⟩ := Classical.not_imp.1 hrest
    rw [Bool.not_eq_true] at hf
    have hroom : 0 < t.awaiting.window.room := hok.room_compact_pos hf
    rcases hread : Feed.read t.source t.awaiting.window.room with ⟨reply, s⟩
    cases reply with
    | read bytes count =>
      obtain ⟨r, u, calls, hanswered⟩ := h bytes count s hroom hread
      refine ⟨r, u, .read t.awaiting.window.room (.read bytes count) :: calls, ?_,
        fun hfeed k before => ?_⟩
      · exact .of_compact hok (.cons hok.retained_compact hroom hread hanswered.fills)
      · rw [rationOf_cons, List.append_cons]
        exact .again (t := t.atop _ _ before) hv hf (read_atop hfeed t.awaiting hread _ before)
          (hanswered.settles hfeed k _)
    | finished =>
      have hlast : (t.awaiting.ended s).verdict p = .wantsMore →
          (t.awaiting.ended s).window.isFull = true := rest_of_exhausted rfl
      obtain ⟨r, u, hsource, hsettles⟩ := exists_settles_of_rest hlast
      refine ⟨r, u, [.read t.awaiting.window.room .finished], hsource ▸ ?_,
        fun hfeed k before => ?_⟩
      · exact .of_compact hok (.last hok.compact hroom hread rfl)
      · rw [rationOf_singleton rfl]
        exact .again (t := t.atop _ _ before) hv hf (read_atop hfeed t.awaiting hread k before)
          (hsettles _ k _)
    | failed e =>
      refine ⟨.error (.io e), { t.awaiting with source := s },
        [.read t.awaiting.window.room (.failed e)], ?_, fun hfeed k before => ?_⟩
      · exact .of_compact hok (.last hok.compact hroom hread rfl)
      · rw [rationOf_singleton rfl]
        exact .failed (t := t.atop _ _ before) hv hf (read_atop hfeed t.awaiting hread k before)

/-- Over a feed that rests every request is answered: by induction on the bytes that there is room
for, and, as long as no bytes come, on the reads without bytes that are still to come. -/
theorem exists_answered (p : Pattern) {t : Tokenizer σ} (hok : t.window.Ok)
    (hrests : Feed.Rests t.source) : ∃ r u calls, Answered p t r u calls := by
  obtain ⟨n, hn⟩ : ∃ n, t.window.capacity - t.window.kept = n := ⟨_, rfl⟩
  obtain ⟨s, hs⟩ : ∃ s, t.source = s := ⟨_, rfl⟩
  induction n using Nat.strong_induction_on generalizing t s with
  | _ n ih =>
    have hacc : Acc Feed.Idles s := (hs ▸ hrests).acc
    induction hacc generalizing t with
    | intro s _ ihs =>
      refine exists_answered_of_reads hok fun bytes count s' hroom hread => ?_
      have hfed : (t.awaiting.fed bytes count s').window.Ok := hok.compact.receive bytes count
      have hkept : (t.awaiting.fed bytes count s').window.kept =
          t.window.kept + min count t.awaiting.window.room := by
        rw [← hok.kept_compact]
        exact Window.kept_receive hok.retained_compact bytes count
      have hcapacity : (t.awaiting.fed bytes count s').window.capacity = t.window.capacity := rfl
      rcases Nat.eq_zero_or_pos count with rfl | hcount
      · have hidle : Feed.Idles s' s := by
          refine ⟨t.awaiting.window.room, hroom, ?_, ?_⟩ <;> rw [← hs, hread]
          rfl
        refine ihs s' hidle hfed (hrests.read hroom hread) ?_ rfl
        rw [hkept, hcapacity]
        omega
      · have hle := hfed.kept_le
        refine ih _ ?_ hfed (hrests.read hroom hread) rfl s' rfl
        rw [hkept] at hle ⊢
        rw [hcapacity] at hle ⊢
        omega

/-! ### Requests -/

section

variable {τ : Type} [Source τ] {t t' : Tokenizer τ} {e : TokenError}

/-- The first request reads, and is then the one that could be made after the read. -/
theorem find_of_read (hp : t.phase = .uninitialized)
    (h : (t.note [.initialFill t.window.capacity]).read = (.ok (), t')) :
    t.find p = find { t' with phase := .ready } p := by
  refine find_fill hp ?_
  unfold fill
  rw [h]

theorem find_of_read_error (hp : t.phase = .uninitialized)
    (h : (t.note [.initialFill t.window.capacity]).read = (.error e, t')) :
    t.find p = (.error e, t') := by
  unfold find fill
  rw [hp, h]

end

/-- To look for `p` from `t` comes to the answer `r` and to `u`, after `calls`, if the ration covers
them. -/
structure Sought (p : Pattern) (t : Tokenizer σ) (r : Except TokenError Nat) (u : Tokenizer σ)
    (calls : List Call) : Prop where
  fills : Feed.Fills t.window t.source calls u.source
  find_eq : ∀ {τ : Type} [Source τ] {f : σ → Nat → List Call → τ}, Feed.IsBehind f → ∀ k before,
    (t.atop f (rationOf calls + k) before).find p = (r, u.atop f k (before ++ calls))

/-- A tokenizer that has not read anything reads, and then looks for the token. -/
theorem exists_sought_of_uninitialized (p : Pattern) (hok : t.window.Ok)
    (hp : t.phase = .uninitialized) (hlimit : t.window.limit = 0) (hroom : 0 < t.window.room)
    (hrests : Feed.Rests t.source) : ∃ r u calls, Sought p t r u calls := by
  let begun : Tokenizer σ := t.note [.initialFill t.window.capacity]
  rcases hread : Feed.read t.source t.window.room with ⟨reply, s⟩
  cases reply with
  | read bytes count =>
    let t' : Tokenizer σ := { begun.fed bytes count s with phase := .ready }
    have hok' : t'.window.Ok := hok.receive bytes count
    obtain ⟨r, u, calls, hanswered⟩ := exists_answered p hok' (hrests.read hroom hread)
    refine ⟨r, u, .read t.window.room (.read bytes count) :: calls, ?_,
      fun {_ _ f} hfeed k before => ?_⟩
    · exact .cons (hok.retained_of_limit hlimit) hroom hread hanswered.fills
    · rw [rationOf_cons, List.append_cons]
      have hfind := find_of_read (p := p) (t := t.atop f _ before) hp
        (read_atop hfeed begun hread (rationOf calls + k) before)
      exact hfind.trans ((hanswered.settles hfeed k _).find_eq hok' (.inl rfl))
  | finished =>
    let t' : Tokenizer σ := { begun.ended s with phase := .ready }
    have hrest : t'.verdict p = .wantsMore → t'.window.isFull = true := rest_of_exhausted rfl
    obtain ⟨r, u, hsource, hsettles⟩ := exists_settles_of_rest hrest
    refine ⟨r, u, [.read t.window.room .finished], hsource ▸ ?_,
      fun {_ _ f} hfeed k before => ?_⟩
    · exact .last hok hroom hread rfl
    · rw [rationOf_singleton rfl]
      have hfind := find_of_read (p := p) (t := t.atop f k before) hp
        (read_atop hfeed begun hread k before)
      exact hfind.trans ((hsettles f k _).find_eq hok (.inl rfl))
  | failed e =>
    refine ⟨.error (.io e), { begun with source := s }, [.read t.window.room (.failed e)], ?_,
      fun {_ _ f} hfeed k before => ?_⟩
    · exact .last hok hroom hread rfl
    · rw [rationOf_singleton rfl]
      exact find_of_read_error (t := t.atop f k before) hp (read_atop hfeed begun hread k before)

theorem exists_sought (p : Pattern) {τ : Type} [Source τ] {f : σ → τ} (h : (t.map f).Sound)
    (hrests : Feed.Rests t.source) : ∃ r u calls, Sought p t r u calls := by
  have hok : t.window.Ok := h.ok
  have hopen : t.IsOpen → ∃ r u calls, Sought p t r u calls := by
    intro ho
    obtain ⟨r, u, calls, hanswered⟩ := exists_answered p hok hrests
    exact ⟨r, u, calls, hanswered.fills, fun hfeed k before =>
      (hanswered.settles hfeed k before).find_eq (t := t.atop _ _ before) hok ho⟩
  cases hp : t.phase with
  | closed =>
    refine ⟨.error (.noSuchElement .closed), t, [], .nil hok t.source,
      fun {_ _ f} _ k before => ?_⟩
    rw [List.append_nil, rationOf_nil]
    exact find_of_closed (u := t.atop f k before) hp p
  | uninitialized =>
    exact exists_sought_of_uninitialized p hok hp (h.untouched hp).1 (h.room_pos hp) hrests
  | ready => exact hopen (.inl hp)
  | needsInput => exact hopen (.inr hp)

/-- So does the request for the token. -/
theorem Sought.exists_rawNext (h : Sought p t r u calls) :
    ∃ (result : Except TokenError String) (v : Tokenizer σ), v.source = u.source ∧
      ∀ {τ : Type} [Source τ] {f : σ → Nat → List Call → τ}, Feed.IsBehind f → ∀ k before,
        (t.atop f (rationOf calls + k) before).rawNext p = (result, v.atop f k (before ++ calls)) := by
  cases r with
  | error e =>
    exact ⟨.error e, u, rfl, fun hfeed k before =>
      rawNext_of_find_error (h.find_eq hfeed k before)⟩
  | ok stop =>
    cases htake : u.window.take stop with
    | error e =>
      refine ⟨.error e, u, rfl, fun {_ _ f} hfeed k before => ?_⟩
      have hwindow : (u.atop f k (before ++ calls)).window.take stop = .error e := htake
      unfold rawNext
      simp only [h.find_eq hfeed, hwindow]
    | ok taken =>
      obtain ⟨token, w⟩ := taken
      refine ⟨.ok token, { u with window := w }.note [.matched p.source token], rfl,
        fun {_ _ f} hfeed k before => ?_⟩
      have hwindow : (u.atop f k (before ++ calls)).window.take stop = .ok (token, w) := htake
      unfold rawNext
      simp only [h.find_eq hfeed, hwindow]
      rfl

/-- A source always rests, so this is how a request reads from it. -/
theorem fills_rawNext {σ : Type} [Source σ] {t : Tokenizer σ} (ht : Reachable t) (p : Pattern) :
    Feed.Fills t.window t.source (t.log.rawNext p).2.source.calls
      (t.log.rawNext p).2.source.source := by
  have hsound : (t.map id).Sound := ht.sound
  obtain ⟨r, u, calls, hsought⟩ := exists_sought p hsound (Feed.rests_of_patience t.source)
  obtain ⟨result, v, hsource, hnext⟩ := hsought.exists_rawNext
  have hlog : t.log.rawNext p = (result, v.atop (fun s _ calls => ⟨s, calls⟩) 0 calls) :=
    hnext Feed.isBehind_source 0 []
  rw [hlog]
  show Feed.Fills t.window t.source calls v.source
  rw [hsource]
  exact hsought.fills

/-- **Every request comes to an end.**  Let a client have left a tokenizer in whatever state it can
reach, over whatever source, and let it go on with a feed that answers only finitely many reads
without bytes.  Then a request for a token returns after finitely many reads, with a result that no
ration beyond them changes.  All of the reads offer room; those that deliver are no more than the
window has room for beside the bytes that it has to keep when the request is made, so at most as many
as its capacity; and at most one of them tells the end. -/
theorem rawNext_ends {τ : Type} [Source τ] {f : σ → τ} (ht : Reachable (t.map f))
    (hrests : Feed.Rests t.source) (p : Pattern) :
    ∃ (result : Except TokenError String) (u : Tokenizer σ) (calls : List Call),
      (∀ k before, (t.atop Feed.rationed (rationOf calls + k) before).rawNext p =
        (result, u.atop Feed.rationed k (before ++ calls))) ∧
      Feed.Answers t.source calls u.source ∧
      calls.countP Call.delivers + t.window.kept ≤ t.window.capacity ∧
      calls.countP Call.endsReading ≤ 1 := by
  obtain ⟨r, u, calls, hsought⟩ := exists_sought p ht.sound hrests
  obtain ⟨result, v, hsource, hnext⟩ := hsought.exists_rawNext
  obtain ⟨hanswers, hdelivers, hends⟩ := hsought.fills
  exact ⟨result, v, calls, hnext Feed.isBehind_rationed, hsource ▸ hanswers, hdelivers, hends⟩

end Tokenizer

/-- A feed of one letter, which takes the longer over its end the more room it was offered. -/
inductive Hesitant
  | fresh
  | waiting (left : Nat)

namespace Hesitant

/-- Hand out the letter, then answer as many reads without bytes as there was room for, and end. -/
def read : Hesitant → (room : Nat) → Reply × Hesitant
  | fresh, room => (.read [0x61] 1, waiting room)
  | waiting (n + 1), _ => (.read [] 0, waiting n)
  | waiting 0, _ => (.finished, waiting 0)

instance : Feed Hesitant where
  read := read
  close s := (none, s)

theorem rests_waiting (n : Nat) : Feed.Rests (waiting n) := by
  induction n with
  | zero =>
    intro rooms _
    have hafter : ∀ i, Feed.after (waiting 0) rooms i = waiting 0 := by
      intro i
      induction i with
      | zero => rfl
      | succ i ih =>
        show (Feed.read (Feed.after (waiting 0) rooms i) (rooms i)).2 = waiting 0
        rw [ih]
        rfl
    refine Set.finite_empty.subset fun i hi => ?_
    have hi : (Feed.read (Feed.after (waiting 0) rooms i) (rooms i)).1.isEmptyRead = true := hi
    rw [hafter] at hi
    cases hi
  | succ n ih => exact Feed.rests_of_read fun _ _ => ih

theorem rests_fresh : Feed.Rests fresh := Feed.rests_of_read fun room _ => rests_waiting room

end Hesitant

namespace Tokenizer

/-- A tokenizer of such a feed with room for two bytes. -/
def hesitating : Tokenizer Hesitant :=
  ⟨.fresh, .empty 2, .uninitialized, false, .empty 1, none, []⟩

/-- The letters `a`, as many as there are. -/
def lettersA : Pattern := ⟨"a+", .rep true 1 none (.chars (.single 'a'))⟩

/-- The letter is the token once the feed has told its end, after two reads without bytes. -/
theorem hesitating_ends :
    Reachable (hesitating.atop Feed.rationed 0 []) ∧ Feed.Rests hesitating.source ∧
      (∃ (result : Except TokenError String) (u : Tokenizer Hesitant) (calls : List Call),
        (∀ k before, (hesitating.atop Feed.rationed (rationOf calls + k) before).rawNext lettersA =
          (result, u.atop Feed.rationed k (before ++ calls))) ∧
        Feed.Answers hesitating.source calls u.source ∧
        calls.countP Call.delivers + hesitating.window.kept ≤ 2 ∧
        calls.countP Call.endsReading ≤ 1) ∧
      ((hesitating.atop Feed.rationed 2 []).rawNext lettersA).1 = .ok "a" ∧
      ((hesitating.atop Feed.rationed 2 []).rawNext lettersA).2.source.calls =
        [.read 2 (.read [0x61] 1), .read 1 (.read [] 0), .read 1 (.read [] 0),
          .read 1 .finished] := by
  have hreachable : Reachable (hesitating.atop Feed.rationed 0 []) :=
    .fresh (s := ⟨⟨.fresh, 0⟩, []⟩) (.inr ⟨⟨2, 1, none⟩, rfl⟩)
  exact ⟨hreachable, Hesitant.rests_fresh, rawNext_ends hreachable Hesitant.rests_fresh lettersA,
    by decide +kernel, by decide +kernel⟩

end Tokenizer

end StreamParser
