import StreamParser.Proofs.Grammar.Commitment
import StreamParser.Proofs.Pattern.Walk

/-!
# The room that a run over a stream needs

A tokenizer has room for the bytes from the oldest mark on, or from its position on if it holds no
mark.  `Stream.reach` is the place behind the last byte for which there is room.

* `Action.Yields l m n k x b a n'`: in the stream `l`, with a window of `m` bytes, the part `x` goes
  from the place `n` to the place `n'` and outputs `a`, if there is room up to the place `k`; `b`
  tells whether it commits.
* `Action.Declines l m n k x`: with the same room it fails, and there is recovery.
* `Action.Passes l m n x a n'`: it goes from `n` to `n'` and outputs `a` if no mark is held, however
  little more room there is than a window.

A commit gives up all marks, so all that passes can be committed with no room at all
(`Passes.commit`), and behind it there is room for a whole window again (`Yields.bind_committed`).
-/

namespace StreamParser

variable {σ ν α β : Type}

/-- The place up to which there is room for bytes. -/
def Stream.reach (s : Stream σ) : Nat :=
  oldest s.position s.tokenizer.window.marks + s.tokenizer.window.capacity

variable [Source σ]

/-- A session at the place `n` of the stream `l`, with a window of `m` bytes, and inside of a trial. -/
structure Session.At (l : List UInt8) (m n : Nat) (s : Session (Stream σ) ν) : Prop where
  serves : s.input.tokenizer.Serves l
  capacity_eq : s.input.tokenizer.window.capacity = m
  position_eq : s.input.position = n
  trials_pos : 0 < s.input.trials

section Session

variable {l : List UInt8} {m n n' : Nat} {b : Bool} {s s' : Session (Stream σ) ν}

theorem Session.At.settled (h : s.At l m n)
    (hs : Stream.Settled (·.Serves l) b s.input s'.input) (hn : s'.input.position = n') :
    s'.At l m n' :=
  ⟨hs.holds, hs.capacity_eq.trans h.capacity_eq, hn, hs.trials_eq ▸ h.trials_pos⟩

theorem Session.At.begun (h : s.At l m n) : (Action.begun s).At l m n :=
  ⟨(Tokenizer.stable_serves l).mark _ h.serves, h.capacity_eq, h.position_eq, Nat.succ_pos _⟩

/-- Inside of a trial a transaction is no more than what is in it. -/
theorem Session.At.transaction_eq (h : s.At l m n) (x : Action (Stream σ) ν α) :
    Action.transaction x s = x s :=
  if_pos (decide_eq_true h.trials_pos)

omit [Source σ] in
theorem reach_begun (s : Session (Stream σ) ν) : (Action.begun s).input.reach = s.input.reach :=
  congrArg (· + _) (oldest_concat rfl)

/-- Further on there is room for more. -/
theorem Session.At.reach_le (h : s.At l m n)
    (hs : Stream.Settled (·.Serves l) false s.input s'.input) (hn : s'.input.position = n')
    (hle : n ≤ n') : s.input.reach ≤ s'.input.reach := by
  have hposition : s.input.position ≤ s'.input.position := by
    rw [h.position_eq, hn]
    exact hle
  have hmarks : s'.input.tokenizer.window.marks = s.input.tokenizer.window.marks := hs.marks_eq
  unfold Stream.reach
  rw [hmarks, hs.capacity_eq]
  exact Nat.add_le_add_right (oldest_mono hposition _) _

/-- Without marks there is room for a window. -/
theorem Session.At.reach_eq (h : s.At l m n) (hm : s.input.tokenizer.window.marks = []) :
    s.input.reach = n + m := by
  unfold Stream.reach
  rw [hm, h.capacity_eq, ← h.position_eq]
  rfl

end Session

namespace Action

/-- With room up to the place `k` the part goes from `n` to `n'` and outputs `a`; `b` tells whether it
commits. -/
def Yields (l : List UInt8) (m n k : Nat) (x : Action (Stream σ) ν α) (b : Bool) (a : α)
    (n' : Nat) : Prop :=
  n ≤ n' ∧ ∀ s, s.At l m n → k ≤ s.input.reach → ∃ s', x s = some (.ok a, s') ∧
    Stream.Settled (·.Serves l) b s.input s'.input ∧ s'.input.position = n'

/-- With room up to the place `k` the part fails, and there is recovery. -/
def Declines (l : List UInt8) (m n k : Nat) (x : Action (Stream σ) ν α) : Prop :=
  ∀ s, s.At l m n → k ≤ s.input.reach → ∃ e s', x s = some (.error e, s') ∧
    e.isRecoverable = true ∧ Stream.Settled (·.Serves l) false s.input s'.input

/-- If no mark is held, the part goes from `n` to `n'` and outputs `a`. -/
def Passes (l : List UInt8) (m n : Nat) (x : Action (Stream σ) ν α) (a : α) (n' : Nat) : Prop :=
  n ≤ n' ∧ ∀ s, s.At l m n → s.input.tokenizer.window.marks = [] → ∃ s', x s = some (.ok a, s') ∧
    Stream.Settled (·.Serves l) true s.input s'.input ∧ s'.input.position = n'

variable {l : List UInt8} {m n n₁ n' k k' : Nat} {b b' : Bool} {a : α} {c : β}
  {x y : Action (Stream σ) ν α} {f : α → Action (Stream σ) ν β}

theorem Yields.mono (h : Yields l m n k x b a n') (hk : k ≤ k') : Yields l m n k' x b a n' :=
  ⟨h.1, fun s hs hreach => h.2 s hs (Nat.le_trans hk hreach)⟩

theorem Declines.mono (h : Declines l m n k x) (hk : k ≤ k') : Declines l m n k' x :=
  fun s hs hreach => h s hs (Nat.le_trans hk hreach)

theorem yields_pure (a : α) : Yields l m n k (pure a : Action (Stream σ) ν α) false a n :=
  ⟨Nat.le_refl n, fun s hs _ => ⟨s, rfl, .refl hs.serves, hs.position_eq⟩⟩

/-! ### Tokens -/

section Token

variable {p : Pattern} {st : MatchStatus}

/-- If what tells the answer fits in the window, the window does not overflow. -/
theorem lookup_of_tells (hp : p.Streamable) {s : Session (Stream σ) ν} (hs : s.At l m n)
    (h : p.Tells (l.drop n) k st) (hreach : n + k ≤ s.input.reach) :
    (s.input.tokenizer.whole l).lookup p = (s.input.tokenizer.whole l).outcome p st := by
  have hposition : (s.input.tokenizer.whole l).position = n := hs.position_eq
  have hstream : (s.input.tokenizer.whole l).stream = l := rfl
  have hreach : n + k ≤ (s.input.tokenizer.whole l).oldest +
    (s.input.tokenizer.whole l).capacity := hreach
  have hunread : (s.input.tokenizer.whole l).unread = l.drop n := by
    unfold Whole.unread
    rw [hposition, hstream]
  have hpos := h.pos
  have hold := (s.input.tokenizer.whole l).oldest_le
  refine Whole.lookup_of_not_overflows hs.serves.position_le hp (fun ho => ?_) ?_
  · have hfull := ho.1
    rw [hstream] at hfull
    have hmatch := h.take hp (n := (s.input.tokenizer.whole l).oldest +
      (s.input.tokenizer.whole l).capacity - (s.input.tokenizer.whole l).position) (by omega)
      (by rw [List.length_drop]; omega)
    rw [← hunread] at hmatch
    rcases (Whole.overflows_iff hp ho.1 (by omega) hmatch).1 ho with hneeds | ⟨-, hedge⟩
    · exact h.isSettled hneeds
    · omega
  · rw [hunread]
    exact h.whole hp

theorem yields_matchPattern (hp : p.Streamable) {j : Nat} (h : p.Tells (l.drop n) k (.matched j))
    {token : String} (ht : Utf8.text? ((l.drop n).take j) = some token) :
    Yields l m n (n + k) (matchPattern p : Action (Stream σ) ν String) false token (n + j) := by
  refine ⟨Nat.le_add_right n j, fun s hs hreach => ?_⟩
  have hposition : (s.input.tokenizer.whole l).position = n := hs.position_eq
  have hlookup : (s.input.tokenizer.whole l).lookup p = .ok (n + j) := by
    rw [lookup_of_tells hp hs h hreach]
    show Except.ok ((s.input.tokenizer.whole l).position + j) = _
    rw [hposition]
  have htext : Utf8.text? (((s.input.tokenizer.whole l).stream.take (n + j)).drop
      (s.input.tokenizer.whole l).position) = some token := by
    rw [hposition, List.drop_take, Nat.add_sub_cancel_left]
    exact ht
  obtain ⟨hserves, hresult, hwhole⟩ := hs.serves.rawNext hp
  rw [Whole.rawNext_of_ok hlookup htext] at hresult hwhole
  have hkept := Stream.kept_matchPattern (Tokenizer.stable_serves l) hs.serves hp
  have hmatch : s.input.matchPattern p =
      (.ok token, { s.input with tokenizer := (s.input.tokenizer.rawNext p).2 }) := by
    rw [Stream.matchPattern_eq, hresult]
    rfl
  rw [hmatch] at hkept
  refine ⟨{ s with input := { s.input with tokenizer := (s.input.tokenizer.rawNext p).2 } }, ?_,
    Stream.settled_false_iff.2 hkept, congrArg Whole.position hwhole⟩
  show some ((s.input.matchPattern p).1, { s with input := (s.input.matchPattern p).2 }) = _
  rw [hmatch]

theorem declines_matchPattern (hp : p.Streamable) (h : p.Tells (l.drop n) k .noMatch) :
    Declines l m n (n + k) (matchPattern p : Action (Stream σ) ν String) := by
  intro s hs hreach
  have hlookup := lookup_of_tells hp hs h hreach
  obtain ⟨hserves, hresult, -⟩ := hs.serves.rawNext hp
  rw [Whole.rawNext_of_error hlookup] at hresult
  have hkept := Stream.kept_matchPattern (Tokenizer.stable_serves l) hs.serves hp
  have hmatch : s.input.matchPattern p =
      (.error (.token ((s.input.tokenizer.whole l).mismatch p)),
        { s.input with tokenizer := (s.input.tokenizer.rawNext p).2 }) := by
    rw [Stream.matchPattern_eq, hresult]
    rfl
  refine ⟨_, { s with input := (s.input.matchPattern p).2 }, ?_,
    ParseError.isRecoverable_mismatch (s.input.tokenizer.whole l) p,
    Stream.settled_false_iff.2 hkept⟩
  show some ((s.input.matchPattern p).1, { s with input := (s.input.matchPattern p).2 }) = _
  rw [hmatch]

end Token

/-! ### Parts in a row -/

/-- Without a commit both parts have to fit in the same room. -/
theorem Yields.bind (hx : Yields l m n k x false a n₁) (hf : Yields l m n₁ k (f a) b c n') :
    Yields l m n k (Action.bind x f) b c n' := by
  refine ⟨Nat.le_trans hx.1 hf.1, fun s hs hreach => ?_⟩
  obtain ⟨s₁, h₁, hsettled, hn₁⟩ := hx.2 s hs hreach
  obtain ⟨s', h', hsettled', hn'⟩ := hf.2 s₁ (hs.settled hsettled hn₁)
    (Nat.le_trans hreach (hs.reach_le hsettled hn₁ hx.1))
  refine ⟨s', ?_, ?_, hn'⟩
  · unfold Action.bind
    rw [h₁]
    exact h'
  · have := hsettled.trans hsettled'
    rwa [Bool.false_or] at this

/-- After a commit there is room for a window. -/
theorem Yields.bind_committed (hx : Yields l m n k x true a n₁)
    (hf : Yields l m n₁ (n₁ + m) (f a) b c n') : Yields l m n k (Action.bind x f) true c n' := by
  refine ⟨Nat.le_trans hx.1 hf.1, fun s hs hreach => ?_⟩
  obtain ⟨s₁, h₁, hsettled, hn₁⟩ := hx.2 s hs hreach
  have hs₁ := hs.settled hsettled hn₁
  obtain ⟨s', h', hsettled', hn'⟩ := hf.2 s₁ hs₁ (Nat.le_of_eq (hs₁.reach_eq hsettled.marks_eq).symm)
  refine ⟨s', ?_, hsettled.trans hsettled', hn'⟩
  unfold Action.bind
  rw [h₁]
  exact h'

/-- To change the output changes nothing else. -/
theorem Yields.map (hx : Yields l m n k x b a n') (g : α → β) :
    Yields l m n k (Action.bind x fun a => pure (g a)) b (g a) n' := by
  refine ⟨hx.1, fun s hs hreach => ?_⟩
  obtain ⟨s', h', hsettled, hn'⟩ := hx.2 s hs hreach
  refine ⟨s', ?_, hsettled, hn'⟩
  unfold Action.bind
  rw [h']
  rfl

theorem Declines.bind (hx : Declines l m n k x) (f : α → Action (Stream σ) ν β) :
    Declines l m n k (Action.bind x f) := by
  intro s hs hreach
  obtain ⟨e, s', h', he, hsettled⟩ := hx s hs hreach
  refine ⟨e, s', ?_, he, hsettled⟩
  unfold Action.bind
  rw [h']

theorem Yields.bind_declines (hx : Yields l m n k x false a n₁) (hf : Declines l m n₁ k (f a)) :
    Declines l m n k (Action.bind x f) := by
  intro s hs hreach
  obtain ⟨s₁, h₁, hsettled, hn₁⟩ := hx.2 s hs hreach
  obtain ⟨e, s', h', he, hsettled'⟩ := hf s₁ (hs.settled hsettled hn₁)
    (Nat.le_trans hreach (hs.reach_le hsettled hn₁ hx.1))
  refine ⟨e, s', ?_, he, hsettled.trans hsettled'⟩
  unfold Action.bind
  rw [h₁]
  exact h'

/-! ### Trials -/

/-- An attempt yields what is tried, even if it is the first trial. -/
theorem Yields.attempt_ok (hx : Yields l m n k x b a n') {s : Session (Stream σ) ν}
    (hs : (begun s).At l m n) (hserves : s.input.tokenizer.Serves l) (hreach : k ≤ s.input.reach) :
    ∃ s', attempt x s = some (.ok a, s') ∧ Stream.Settled (·.Serves l) b s.input s'.input ∧
      s'.input.position = n' := by
  obtain ⟨s₁, h₁, hsettled, hn₁⟩ := hx.2 (begun s) hs (reach_begun s ▸ hreach)
  obtain ⟨r', s', h', hsettled', hends⟩ :=
    attempt_ends (Tokenizer.stable_serves l) hserves h₁ hsettled
  obtain ⟨rfl, hposition⟩ := hends.of_ok
  exact ⟨s', h', hsettled', hposition.trans hn₁⟩

theorem Yields.attempt (hx : Yields l m n k x b a n') : Yields l m n k (attempt x) b a n' :=
  ⟨hx.1, fun _ hs hreach => hx.attempt_ok hs.begun hs.serves hreach⟩

/-- An attempt that fails comes back. -/
theorem Declines.attempt (hx : Declines l m n k x) {s : Session (Stream σ) ν} (hs : s.At l m n)
    (hreach : k ≤ s.input.reach) : ∃ e s', attempt x s = some (.error e, s') ∧
      e.isRecoverable = true ∧ Stream.Settled (·.Serves l) false s.input s'.input ∧
      s'.input.position = n := by
  obtain ⟨e, s₁, h₁, he, hsettled⟩ := hx (begun s) hs.begun (reach_begun s ▸ hreach)
  obtain ⟨r', s', h', hsettled', hends⟩ :=
    attempt_ends (Tokenizer.stable_serves l) hs.serves h₁ hsettled
  obtain ⟨-, rfl, hposition⟩ | ⟨hno, -⟩ := hends.of_error
  · exact ⟨e, s', h', he, hsettled', hposition.trans hs.position_eq⟩
  · cases hno

theorem Yields.transaction (hx : Yields l m n k x b a n') :
    Yields l m n k (transaction x) b a n' :=
  ⟨hx.1, fun s hs hreach => hs.transaction_eq x ▸ hx.2 s hs hreach⟩

theorem Declines.transaction (hx : Declines l m n k x) : Declines l m n k (transaction x) :=
  fun s hs hreach => hs.transaction_eq x ▸ hx s hs hreach

theorem Yields.orElse_left (hx : Yields l m n k x b a n') (y : Action (Stream σ) ν α) :
    Yields l m n k (orElse x y) b a n' := by
  refine ⟨hx.1, fun s hs hreach => ?_⟩
  obtain ⟨s', h', hends⟩ := hx.attempt.2 s hs hreach
  refine ⟨s', ?_, hends⟩
  unfold Action.orElse
  rw [h']

/-- After what declines the other alternative is where the first one was. -/
theorem Declines.orElse_cases (hx : Declines l m n k x) {s : Session (Stream σ) ν}
    (hs : s.At l m n) (hreach : k ≤ s.input.reach) : ∃ s₁ : Session (Stream σ) ν, s₁.At l m n ∧
      k ≤ s₁.input.reach ∧ Stream.Settled (·.Serves l) false s.input s₁.input ∧
      ∀ y : Action (Stream σ) ν α, orElse x y s = y s₁ := by
  obtain ⟨e, s₁, h₁, he, hsettled, hn₁⟩ := hx.attempt hs hreach
  refine ⟨s₁, hs.settled hsettled hn₁, ?_, hsettled, fun y => ?_⟩
  · exact Nat.le_trans hreach (hs.reach_le hsettled hn₁ (Nat.le_refl n))
  · unfold Action.orElse
    simp only [h₁, he, if_true]

theorem Yields.orElse_right (hx : Declines l m n k x) (hy : Yields l m n k y b a n') :
    Yields l m n k (orElse x y) b a n' := by
  refine ⟨hy.1, fun s hs hreach => ?_⟩
  obtain ⟨s₁, hs₁, hreach₁, hsettled, h₁⟩ := hx.orElse_cases hs hreach
  obtain ⟨s', h', hsettled', hn'⟩ := hy.2 s₁ hs₁ hreach₁
  refine ⟨s', (h₁ y).trans h', ?_, hn'⟩
  have := hsettled.trans hsettled'
  rwa [Bool.false_or] at this

theorem Declines.orElse (hx : Declines l m n k x) (hy : Declines l m n k y) :
    Declines l m n k (orElse x y) := by
  intro s hs hreach
  obtain ⟨s₁, hs₁, hreach₁, hsettled, h₁⟩ := hx.orElse_cases hs hreach
  obtain ⟨e, s', h', he, hsettled'⟩ := hy s₁ hs₁ hreach₁
  exact ⟨e, s', (h₁ y).trans h', he, hsettled.trans hsettled'⟩

/-! ### Without marks -/

/-- Where no mark is held there is room for a window. -/
theorem Yields.passes (hx : Yields l m n (n + m) x b a n') : Passes l m n x a n' := by
  refine ⟨hx.1, fun s hs hmarks => ?_⟩
  obtain ⟨s', h', hsettled, hn'⟩ := hx.2 s hs (Nat.le_of_eq (hs.reach_eq hmarks).symm)
  refine ⟨s', h', ⟨hsettled.holds, hsettled.capacity_eq, hsettled.trials_eq, ?_⟩, hn'⟩
  rw [hsettled.marks_eq, hmarks]
  cases b <;> rfl

theorem Passes.bind (hx : Passes l m n x a n₁) (hf : Passes l m n₁ (f a) c n') :
    Passes l m n (Action.bind x f) c n' := by
  refine ⟨Nat.le_trans hx.1 hf.1, fun s hs hmarks => ?_⟩
  obtain ⟨s₁, h₁, hsettled, hn₁⟩ := hx.2 s hs hmarks
  obtain ⟨s', h', hsettled', hn'⟩ := hf.2 s₁ (hs.settled hsettled hn₁) hsettled.marks_eq
  refine ⟨s', ?_, hsettled.trans hsettled', hn'⟩
  unfold Action.bind
  rw [h₁]
  exact h'

theorem Passes.transaction (hx : Passes l m n x a n') : Passes l m n (transaction x) a n' :=
  ⟨hx.1, fun s hs hmarks => hs.transaction_eq x ▸ hx.2 s hs hmarks⟩

/-- What is committed holds no marks, and needs no room for what was before it. -/
theorem Passes.commit (hx : Passes l m n x a n') : Yields l m n k (commit x) true a n' := by
  refine ⟨hx.1, fun s hs _ => ?_⟩
  have hsettled := Stream.settled_commit (Tokenizer.lasting_serves l) hs.serves
  have hposition : (Input.commit s.input).position = n := by
    show s.input.tokenizer.commit.window.position = n
    rw [Tokenizer.window_commit]
    exact hs.position_eq
  obtain ⟨s', h', hsettled', hn'⟩ := hx.2 { s with input := Input.commit s.input }
    (hs.settled hsettled hposition) hsettled.marks_eq
  refine ⟨s', ?_, hsettled.trans hsettled', hn'⟩
  unfold Action.commit Action.mapError Action.letGo
  rw [h']

theorem passes_many_nil (hx : Declines l m n (n + m) x) {i : Nat} (hi : 0 < i) :
    Passes l m n (many x none i) [] n := by
  refine ⟨Nat.le_refl n, fun s hs hmarks => ?_⟩
  obtain ⟨i, rfl⟩ := Nat.exists_eq_succ_of_ne_zero (Nat.ne_of_gt hi)
  obtain ⟨e, s', h', he, hsettled, hn'⟩ :=
    hx.attempt hs (Nat.le_of_eq (hs.reach_eq hmarks).symm)
  refine ⟨s', ?_, ⟨hsettled.holds, hsettled.capacity_eq, hsettled.trials_eq, ?_⟩, hn'⟩
  · unfold Action.many
    simp only [reduceCtorEq, if_false, h', he, if_true]
  · rw [hsettled.marks_eq, hmarks]
    rfl

/-- An item that goes further on, and the items behind it. -/
theorem passes_many_cons (hx : Yields l m n (n + m) x b a n₁) (hlt : n < n₁) {i : Nat}
    {as : List α} (hrest : Passes l m n₁ (many x none i) as n') :
    Passes l m n (many x none (i + 1)) (a :: as) n' := by
  refine ⟨Nat.le_trans hx.1 hrest.1, fun s hs hmarks => ?_⟩
  obtain ⟨s₁, h₁, hsettled, hn₁⟩ := hx.attempt.passes.2 s hs hmarks
  obtain ⟨s', h', hsettled', hn'⟩ := hrest.2 s₁ (hs.settled hsettled hn₁) hsettled.marks_eq
  have hmoves : Input.position s₁.input ≠ Input.position s.input := by
    show s₁.input.position ≠ s.input.position
    rw [hn₁, hs.position_eq]
    exact Nat.ne_of_gt hlt
  refine ⟨s', ?_, hsettled.trans hsettled', hn'⟩
  unfold Action.many
  simp only [reduceCtorEq, if_false, h₁, if_neg hmoves, Option.map_none, Action.bind, h']
  rfl

end Action

end StreamParser
