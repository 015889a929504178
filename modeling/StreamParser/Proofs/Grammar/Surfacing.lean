import StreamParser.Input.Cursor
import StreamParser.Proofs.Grammar.Balance

/-!
# Fatal failures surface

An error from which there is no recovery should end a parse, wherever it comes up: no alternative is
tried after it, no repetition ends with it, and what is told about it at last goes back to it.

* `Grammar.ComesTo Q` says that a run comes to a part, from a session, of which `Q` is true.  Its
  constructors follow the steps of a run.
* `Input.Sound` is what has to be known of an input: trials hand an error on, and change it only after
  a commit.  Cursors and streams are sound.
* `Grammar.ComesTo.surfaces`: if a part fails for good, so does the whole, for the same deepest reason.
* `Action.Accounts` says, the other way round, that a part which fails for good has a reason: it has
  committed, or comes to something that fails for good by itself.
* `Grammar.fatal_failures_surface` puts both together.
-/

namespace StreamParser

/-! ### Sessions -/

namespace Session

variable {ω ν : Type} [Input ω]

/-- The session in which a trial has begun. -/
def trying (s : Session ω ν) : Session ω ν := { s with input := (Input.begin s.input).2 }

/-- The session in which a transaction goes on: a trial has begun, unless there was one. -/
def transacting (s : Session ω ν) : Session ω ν := if Input.isTrying s.input then s else s.trying

/-- The session after a commit. -/
def settling (s : Session ω ν) : Session ω ν := { s with input := Input.commit s.input }

/-- The session in which the remarks were made that come before a part. -/
def entering (tell : Moment → Nat → List ν) (s : Session ω ν) : Session ω ν :=
  { s with journal := (tell .entry (Input.position s.input)).reverse ++ s.journal }

end Session

/-! ### Inputs -/

/-- What is told of an input: `K b i j` says that a part of a run goes from `i` to `j`, where `b` tells
whether it commits.  A trial hands on the error of what was tried, or wraps it after a commit. -/
structure Input.Sound {ω : Type} [Input ω] (I : ω → Prop) (K : Bool → ω → ω → Prop) : Prop where
  holds : ∀ {b i j}, K b i j → I j
  refl : ∀ {i}, I i → K false i i
  trans : ∀ {b c i j k}, K b i j → K c j k → K (b || c) i k
  matchPattern : ∀ {i} p, I i → K false i (Input.matchPattern p i).2
  commit : ∀ {i}, I i → K true i (Input.commit i)
  begin : ∀ {i}, I i → I (Input.begin i).2
  succeeded : ∀ {b i j}, I i → K b (Input.begin i).2 j →
    K b i (Input.succeeded (Input.begin i).1 j)
  failed : ∀ {b i j} (e : ParseError), I i → K b (Input.begin i).2 j →
    K b i (Input.failed (Input.begin i).1 e j).2 ∧
      ((Input.failed (Input.begin i).1 e j).1 = e ∨
        b = true ∧ ∃ n, (Input.failed (Input.begin i).1 e j).1 = e.afterCommit n)

/-- A cursor hands on every error, and always comes back. -/
theorem Cursor.sound : Input.Sound (fun _ : Cursor => True) fun _ _ _ => True where
  holds _ := trivial
  refl _ := trivial
  trans _ _ := trivial
  matchPattern _ _ := trivial
  commit _ := trivial
  begin _ := trivial
  succeeded _ _ := trivial
  failed _ _ _ := ⟨trivial, .inl rfl⟩

/-- A stream comes back as long as the mark of the trial is held, which a commit gives up. -/
theorem Stream.sound {σ : Type} [Source σ] :
    Input.Sound (fun s : Stream σ => s.tokenizer.window.Ok) (Settled fun t => t.window.Ok) where
  holds h := h.holds
  refl h := .refl h
  trans h h' := h.trans h'
  matchPattern _ h := settled_false_iff.2 (kept_matchPattern Tokenizer.stable_ok h trivial)
  commit h := settled_commit Tokenizer.lasting_ok h
  begin h := h.mark
  succeeded h h' := (settled_succeeded Tokenizer.stable_ok h h').1
  failed {b i j} e h h' := by
    cases b with
    | false =>
      obtain ⟨herror, hkept, -⟩ := kept_failed Tokenizer.stable_ok h (settled_false_iff.1 h') e
      exact ⟨settled_false_iff.2 hkept, .inl herror⟩
    | true =>
      obtain ⟨hfailed, hsettled⟩ := settled_failed h' e
      have hfailed : Input.failed (Input.begin i).1 e j =
        (e.afterCommit j.position, ⟨j.tokenizer, j.trials - 1⟩) := hfailed
      rw [hfailed]
      exact ⟨hsettled, .inr ⟨rfl, _, rfl⟩⟩

/-! ### Parts of a run -/

namespace Action

variable {ω ν α β : Type} [Input ω] {I : ω → Prop} {K : Bool → ω → ω → Prop}

/-- An item of a repetition is begun in the session `t`. -/
inductive Begins (x : Action ω ν α) (t : Session ω ν) :
    Option Nat → Nat → Session ω ν → Prop
  | now {most : Option Nat} {n : Nat} (hmost : most ≠ some 0) : Begins x t most (n + 1) t
  | later {most : Option Nat} {n : Nat} {s s₁ : Session ω ν} {a : α} (hmost : most ≠ some 0)
    (hx : attempt x s = some (.ok a, s₁)) (hmoved : Input.position s₁.input ≠ Input.position s.input)
    (h : Begins x t (most.map (· - 1)) n s₁) : Begins x t most (n + 1) s

theorem attempt_eq (x : Action ω ν α) (s : Session ω ν) :
    attempt x s = match x s.trying with
      | none => none
      | some (.ok a, s₁) =>
        some (.ok a, { s₁ with input := Input.succeeded (Input.begin s.input).1 s₁.input })
      | some (.error e, s₁) => some (.error (Input.failed (Input.begin s.input).1 e s₁.input).1,
        { s₁ with input := (Input.failed (Input.begin s.input).1 e s₁.input).2 }) := rfl

theorem transaction_eq (x : Action ω ν α) (s : Session ω ν) :
    transaction x s = if Input.isTrying s.input then x s else attempt x s := rfl

/-- What has to be accounted for after a part of a run.  If it has committed, `C` tells where.  If it
has failed for good, it has committed, or `D` tells why. -/
def Accounts (I : ω → Prop) (K : Bool → ω → ω → Prop) (D C : Session ω ν → Prop)
    (x : Action ω ν α) : Prop :=
  ∀ s r s', I s.input → x s = some (r, s') → ∃ b, K b s.input s'.input ∧ (b = true → C s) ∧
    ∀ e, r = .error e → e.isRecoverable = false → b = true ∨ D s

section Accounts

variable {D C D' C' : Session ω ν → Prop} {x y : Action ω ν α}

omit [Input ω] in
theorem Accounts.mono (h : Accounts I K D C x) (hD : ∀ s, D s → D' s) (hC : ∀ s, C s → C' s) :
    Accounts I K D' C' x := by
  intro s r s' hs hx
  obtain ⟨b, hK, hb, he⟩ := h s r s' hs hx
  exact ⟨b, hK, fun hyes => hC s (hb hyes), fun e hr hfatal => (he e hr hfatal).imp_right (hD s)⟩

omit [Input ω] in
/-- A part that is not made of others accounts for itself. -/
theorem accounts_of_keeps
    (hK : ∀ s r s', I s.input → x s = some (r, s') → K false s.input s'.input) :
    Accounts I K (fun s => ∃ e, e.isRecoverable = false ∧ ∃ s', x s = some (.error e, s')) C x := by
  intro s r s' hs hx
  refine ⟨false, hK s r s' hs hx, fun hno => (by cases hno), ?_⟩
  rintro e rfl he
  exact .inr ⟨e, he, s', hx⟩

theorem Accounts.bind (hI : Input.Sound I K) (hx : Accounts I K D C x)
    {f : α → Action ω ν β} {D' C' : α → Session ω ν → Prop}
    (hf : ∀ a, Accounts I K (D' a) (C' a) (f a)) :
    Accounts I K (fun s => D s ∨ ∃ a s₁, x s = some (.ok a, s₁) ∧ D' a s₁)
      (fun s => C s ∨ ∃ a s₁, x s = some (.ok a, s₁) ∧ C' a s₁) (bind x f) := by
  intro s r s' hs h
  unfold Action.bind at h
  rcases h₁ : x s with _ | ⟨e | a, s₁⟩ <;> rw [h₁] at h
  · cases h
  · cases h
    obtain ⟨b, hK, hb, he⟩ := hx s _ s' hs h₁
    refine ⟨b, hK, fun hyes => .inl (hb hyes), fun e' hr hfatal => ?_⟩
    cases hr
    exact (he e rfl hfatal).imp_right .inl
  · obtain ⟨b, hK, hb, -⟩ := hx s _ s₁ hs h₁
    obtain ⟨c, hK', hc, he⟩ := hf a s₁ r s' (hI.holds hK) h
    refine ⟨b || c, hI.trans hK hK', fun hyes => ?_, fun e hr hfatal => ?_⟩
    · rcases Bool.or_eq_true_iff.1 hyes with hyes | hyes
      · exact .inl (hb hyes)
      · exact .inr ⟨a, s₁, h₁, hc hyes⟩
    · rcases he e hr hfatal with hyes | hd
      · exact .inl (Bool.or_eq_true_iff.2 (.inr hyes))
      · exact .inr (.inr ⟨a, s₁, h₁, hd⟩)

theorem accounts_pure (hI : Input.Sound I K) (a : α) :
    Accounts I K D C (pure a : Action ω ν α) := by
  intro s r s' hs h
  cases h
  exact ⟨false, hI.refl hs, fun hno => (by cases hno), fun e hr => by cases hr⟩

omit [Input ω] in
/-- To change the output changes nothing that has to be accounted for. -/
theorem Accounts.map (hx : Accounts I K D C x) (f : α → β) :
    Accounts I K D C (Action.bind x fun a => pure (f a)) := by
  intro s r s' hs h
  unfold Action.bind at h
  rcases h₁ : x s with _ | ⟨e | a, s₁⟩ <;> rw [h₁] at h <;> cases h <;>
    obtain ⟨b, hK, hb, he⟩ := hx s _ s' hs h₁
  · refine ⟨b, hK, hb, ?_⟩
    rintro e' ⟨⟩ hfatal
    exact he e rfl hfatal
  · exact ⟨b, hK, hb, fun e hr => by cases hr⟩

omit [Input ω] in
/-- Other words for an error do not change whether there is recovery. -/
theorem Accounts.mapError (hx : Accounts I K D C x) {f : ParseError → ParseError}
    (hf : ∀ e, (f e).isRecoverable = e.isRecoverable) : Accounts I K D C (mapError f x) := by
  intro s r s' hs h
  unfold Action.mapError at h
  rcases h₁ : x s with _ | ⟨e | a, s₁⟩ <;> rw [h₁] at h <;> cases h <;>
    obtain ⟨b, hK, hb, he⟩ := hx s _ s' hs h₁
  · refine ⟨b, hK, hb, ?_⟩
    rintro e' ⟨⟩ hfatal
    rw [hf e] at hfatal
    exact he e rfl hfatal
  · exact ⟨b, hK, hb, fun e hr => by cases hr⟩

theorem Accounts.remark (hx : Accounts I K D C x) (tell : Moment → Nat → List ν) :
    Accounts I K (fun s => D (s.entering tell)) (fun s => C (s.entering tell))
      (remark tell x) := by
  intro s r s' hs h
  obtain ⟨s₁, h₁, hinput⟩ := remark_cases h
  obtain ⟨b, hK, hb, he⟩ := hx (s.entering tell) r s₁ hs h₁
  rw [hinput]
  exact ⟨b, hK, hb, he⟩

theorem Accounts.attempt (hI : Input.Sound I K) (hx : Accounts I K D C x) :
    Accounts I K (fun s => D s.trying) (fun s => C s.trying) (attempt x) := by
  intro s r s' hs h
  rw [attempt_eq] at h
  rcases h₁ : x s.trying with _ | ⟨e | a, s₁⟩ <;> rw [h₁] at h <;> cases h <;>
    obtain ⟨b, hK, hb, he⟩ := hx s.trying _ s₁ (hI.begin hs) h₁
  · obtain ⟨hK', herror⟩ := hI.failed e hs hK
    refine ⟨b, hK', hb, ?_⟩
    rintro e' ⟨⟩ hfatal
    rcases herror with herror | ⟨hyes, -⟩
    · rw [herror] at hfatal
      exact he e rfl hfatal
    · exact .inl hyes
  · exact ⟨b, hI.succeeded hs hK, hb, fun e hr => by cases hr⟩

theorem Accounts.transaction (hI : Input.Sound I K) (hx : Accounts I K D C x) :
    Accounts I K (fun s => D s.transacting) (fun s => C s.transacting) (transaction x) := by
  intro s r s' hs h
  rw [transaction_eq] at h
  unfold Session.transacting
  by_cases htrying : Input.isTrying s.input = true
  · simp only [if_pos htrying] at h ⊢
    exact hx s r s' hs h
  · simp only [if_neg htrying] at h ⊢
    exact hx.attempt hI s r s' hs h

theorem Accounts.orElse (hI : Input.Sound I K) (hx : Accounts I K D C x)
    (hy : Accounts I K D' C' y) :
    Accounts I K
      (fun s => D s.trying ∨ ∃ e s₁, Action.attempt x s = some (.error e, s₁) ∧
        e.isRecoverable = true ∧ D' s₁)
      (fun s => C s.trying ∨ ∃ e s₁, Action.attempt x s = some (.error e, s₁) ∧
        e.isRecoverable = true ∧ C' s₁) (orElse x y) := by
  intro s r s' hs h
  have hattempt := hx.attempt hI s
  unfold Action.orElse at h
  rcases h₁ : Action.attempt x s with _ | ⟨e | a, s₁⟩ <;> rw [h₁] at h
  · cases h
  · obtain ⟨b, hK, hb, he⟩ := hattempt _ s₁ hs h₁
    simp only at h
    by_cases hrec : e.isRecoverable = true
    · rw [if_pos hrec] at h
      obtain ⟨c, hK', hc, he'⟩ := hy s₁ r s' (hI.holds hK) h
      refine ⟨b || c, hI.trans hK hK', fun hyes => ?_, fun e' hr hfatal => ?_⟩
      · rcases Bool.or_eq_true_iff.1 hyes with hyes | hyes
        · exact .inl (hb hyes)
        · exact .inr ⟨e, s₁, h₁, hrec, hc hyes⟩
      · rcases he' e' hr hfatal with hyes | hd
        · exact .inl (Bool.or_eq_true_iff.2 (.inr hyes))
        · exact .inr (.inr ⟨e, s₁, h₁, hrec, hd⟩)
    · rw [if_neg hrec] at h
      cases h
      exact ⟨b, hK, fun hyes => .inl (hb hyes), fun e' hr hfatal =>
        (he e' hr hfatal).imp_right .inl⟩
  · cases h
    obtain ⟨b, hK, hb, -⟩ := hattempt _ s' hs h₁
    exact ⟨b, hK, fun hyes => .inl (hb hyes), fun e hr => by cases hr⟩

/-- After a commit every failure is accounted for. -/
theorem Accounts.letGo (hI : Input.Sound I K) (hx : Accounts I K D C x) :
    Accounts I K D' (fun _ => True) (letGo x) ∧ Accounts I K D' (fun _ => True) (commit x) := by
  have hdone : ∀ (s : Session ω ν) r s', I s.input → x s.settling = some (r, s') → K true s.input s'.input := by
    intro s r s' hs h
    have hcommit := hI.commit hs
    obtain ⟨b, hK, -, -⟩ := hx s.settling r s' (hI.holds hcommit) h
    exact hI.trans hcommit hK
  refine ⟨fun s r s' hs h => ?_, fun s r s' hs h => ?_⟩
  · exact ⟨true, hdone s r s' hs h, fun _ => trivial, fun _ _ _ => .inl rfl⟩
  · have hcommit : Action.commit x s =
        Action.mapError (ParseError.afterCommit (Input.position s.input)) (fun _ => x s.settling) s :=
      rfl
    rw [hcommit] at h
    unfold Action.mapError at h
    rcases h₁ : x s.settling with _ | ⟨e | a, s₁⟩ <;> rw [h₁] at h <;> cases h
    · exact ⟨true, hdone s _ _ hs h₁, fun _ => trivial, fun _ _ _ => .inl rfl⟩
    · exact ⟨true, hdone s _ _ hs h₁, fun _ => trivial, fun _ _ _ => .inl rfl⟩

theorem Accounts.times (hI : Input.Sound I K) (hx : Accounts I K D C x) (k : Nat) :
    Accounts I K (fun s => ∃ i l s₁, i < k ∧ Action.times x i s = some (.ok l, s₁) ∧ D s₁)
      (fun s => ∃ i l s₁, i < k ∧ Action.times x i s = some (.ok l, s₁) ∧ C s₁)
      (times x k) := by
  -- the first item is begun at once, and the others are those of a shorter repetition after it
  have hfirst : ∀ {Q : Session ω ν → Prop} {k : Nat} (s : Session ω ν), Q s →
      ∃ i l s₁, i < k + 1 ∧ Action.times x i s = some (.ok l, s₁) ∧ Q s₁ :=
    fun s hq => ⟨0, [], s, Nat.succ_pos _, rfl, hq⟩
  have hrest : ∀ {Q : Session ω ν → Prop} {k : Nat} {a : α} {s s₁ : Session ω ν},
      x s = some (.ok a, s₁) →
        (∃ i l s₂, i < k ∧ Action.times x i s₁ = some (.ok l, s₂) ∧ Q s₂) →
          ∃ i l s₂, i < k + 1 ∧ Action.times x i s = some (.ok l, s₂) ∧ Q s₂ := by
    rintro Q k a s s₁ h₁ ⟨i, l, s₂, hi, htimes, hq⟩
    refine ⟨i + 1, a :: l, s₂, Nat.succ_lt_succ hi, ?_, hq⟩
    simp only [Action.times, Action.bind, h₁, htimes, Action.pure]
  induction k with
  | zero => exact accounts_pure hI []
  | succ k ih =>
    refine (hx.bind hI fun a => ih.map (a :: ·)).mono (fun s hd => ?_) (fun s hc => ?_)
    · rcases hd with hd | ⟨a, s₁, h₁, hd⟩
      · exact hfirst s hd
      · exact hrest h₁ hd
    · rcases hc with hc | ⟨a, s₁, h₁, hc⟩
      · exact hfirst s hc
      · exact hrest h₁ hc

theorem Accounts.many (hI : Input.Sound I K) (hx : Accounts I K D C x) (most : Option Nat)
    (n : Nat) :
    Accounts I K (fun s => ∃ t, Begins x t most n s ∧ D t.trying)
      (fun s => ∃ t, Begins x t most n s ∧ C t.trying) (many x most n) := by
  induction n generalizing most with
  | zero =>
    intro s r s' hs h
    cases h
  | succ n ih =>
    intro s r s' hs h
    have hattempt := hx.attempt hI s
    unfold Action.many at h
    by_cases hmost : most = some 0
    · rw [if_pos hmost] at h
      cases h
      exact ⟨false, hI.refl hs, fun hno => (by cases hno), fun e hr => by cases hr⟩
    · rw [if_neg hmost] at h
      rcases h₁ : Action.attempt x s with _ | ⟨e | a, s₁⟩ <;> rw [h₁] at h
      · cases h
      · obtain ⟨b, hK, hb, he⟩ := hattempt _ s₁ hs h₁
        simp only at h
        by_cases hrec : e.isRecoverable = true
        · rw [if_pos hrec] at h
          cases h
          exact ⟨b, hK, fun hyes => ⟨s, .now hmost, hb hyes⟩, fun e hr => by cases hr⟩
        · rw [if_neg hrec] at h
          cases h
          exact ⟨b, hK, fun hyes => ⟨s, .now hmost, hb hyes⟩, fun e' hr hfatal =>
            (he e' (congrArg _ (Except.error.inj hr)) hfatal).imp_right
              fun hd => ⟨s, .now hmost, hd⟩⟩
      · obtain ⟨b, hK, hb, -⟩ := hattempt _ s₁ hs h₁
        simp only at h
        by_cases hstill : Input.position s₁.input = Input.position s.input
        · rw [if_pos hstill] at h
          cases h
          exact ⟨b, hK, fun hyes => ⟨s, .now hmost, hb hyes⟩, fun e hr => by cases hr⟩
        · rw [if_neg hstill] at h
          -- the items that follow are begun later
          obtain ⟨c, hK', hc, he⟩ := (ih (most.map (· - 1))).map (a :: ·) s₁ r s' (hI.holds hK) h
          have hlater : ∀ {Q : Session ω ν → Prop},
              (∃ t, Begins x t (most.map (· - 1)) n s₁ ∧ Q t.trying) →
                ∃ t, Begins x t most (n + 1) s ∧ Q t.trying := by
            rintro Q ⟨t, ht, hq⟩
            exact ⟨t, .later hmost h₁ hstill ht, hq⟩
          refine ⟨b || c, hI.trans hK hK', fun hyes => ?_, fun e hr hfatal => ?_⟩
          · rcases Bool.or_eq_true_iff.1 hyes with hyes | hyes
            · exact ⟨s, .now hmost, hb hyes⟩
            · exact hlater (hc hyes)
          · rcases he e hr hfatal with hyes | hd
            · exact .inl (Bool.or_eq_true_iff.2 (.inr hyes))
            · exact .inr (hlater hd)

/-- The items of a repetition begin in sessions that are as they should be. -/
theorem Begins.holds (hI : Input.Sound I K) (hx : Accounts I K D C x) {t s : Session ω ν}
    {most : Option Nat} {n : Nat} (h : Begins x t most n s) (hs : I s.input) : I t.input := by
  induction h with
  | now hmost => exact hs
  | later hmost hattempt hmoved h ih =>
    obtain ⟨b, hK, -, -⟩ := hx.attempt hI _ _ _ hs hattempt
    exact ih (hI.holds hK)

end Accounts

/-! ### What surfaces -/

/-- The part fails for good, for the same deepest reason as `e`. -/
def Surfaces (e : ParseError) (x : Action ω ν α) (s : Session ω ν) : Prop :=
  ∃ e' s', x s = some (.error e', s') ∧ e'.isRecoverable = false ∧ e'.deepest = e.deepest

section Surfaces

variable {e : ParseError} {x y : Action ω ν α} {s s₁ : Session ω ν}

omit [Input ω] in
theorem Surfaces.bind (h : Surfaces e x s) (f : α → Action ω ν β) : Surfaces e (bind x f) s := by
  obtain ⟨e', s', hx, he⟩ := h
  refine ⟨e', s', ?_, he⟩
  unfold Action.bind
  rw [hx]

omit [Input ω] in
theorem Surfaces.bind_of_ok {a : α} (hx : x s = some (.ok a, s₁)) {f : α → Action ω ν β}
    (h : Surfaces e (f a) s₁) : Surfaces e (Action.bind x f) s := by
  obtain ⟨e', s', hf, he⟩ := h
  refine ⟨e', s', ?_, he⟩
  unfold Action.bind
  rw [hx]
  exact hf

omit [Input ω] in
/-- Other words for an error keep what is deepest. -/
theorem Surfaces.mapError (h : Surfaces e x s) {f : ParseError → ParseError}
    (hf : ∀ e, e.isRecoverable = false →
      (f e).isRecoverable = false ∧ (f e).deepest = e.deepest) : Surfaces e (mapError f x) s := by
  obtain ⟨e', s', hx, he, hdeepest⟩ := h
  obtain ⟨hfatal, hsame⟩ := hf e' he
  refine ⟨f e', s', ?_, hfatal, hsame.trans hdeepest⟩
  unfold Action.mapError
  rw [hx]

theorem Surfaces.remark {tell : Moment → Nat → List ν} (h : Surfaces e x (s.entering tell)) :
    Surfaces e (remark tell x) s := by
  obtain ⟨e', s₁, hx, he⟩ := h
  obtain ⟨s', hremark, -⟩ := remark_of_some hx
  exact ⟨e', s', hremark, he⟩

/-- An attempt does not change an error from which there is no recovery. -/
theorem Surfaces.attempt (hI : Input.Sound I K) {D C : Session ω ν → Prop}
    (hx : Accounts I K D C x) (hs : I s.input) (h : Surfaces e x s.trying) :
    Surfaces e (attempt x) s := by
  obtain ⟨e', s₁, h₁, he, hdeepest⟩ := h
  obtain ⟨b, hK, -, -⟩ := hx s.trying _ s₁ (hI.begin hs) h₁
  have hsame : (Input.failed (Input.begin s.input).1 e' s₁.input).1 = e' := by
    rcases (hI.failed e' hs hK).2 with hsame | ⟨-, n, hwrapped⟩
    · exact hsame
    · rw [hwrapped, ParseError.afterCommit_of_not_isRecoverable he]
  refine ⟨e', { s₁ with input := (Input.failed (Input.begin s.input).1 e' s₁.input).2 }, ?_, he,
    hdeepest⟩
  rw [attempt_eq, h₁]
  simp only [hsame]

theorem Surfaces.transaction (hI : Input.Sound I K) {D C : Session ω ν → Prop}
    (hx : Accounts I K D C x) (hs : I s.input) (h : Surfaces e x s.transacting) :
    Surfaces e (transaction x) s := by
  unfold Session.transacting at h
  unfold Surfaces
  rw [transaction_eq]
  by_cases htrying : Input.isTrying s.input = true
  · rw [if_pos htrying] at h ⊢
    exact h
  · rw [if_neg htrying] at h ⊢
    exact h.attempt hI hx hs

/-- No alternative is tried after such an error. -/
theorem Surfaces.orElse (h : Surfaces e (Action.attempt x) s) : Surfaces e (orElse x y) s := by
  obtain ⟨e', s', hx, he, hdeepest⟩ := h
  refine ⟨e', s', ?_, he, hdeepest⟩
  unfold Action.orElse
  rw [hx]
  simp only [he, Bool.false_eq_true, if_false]

theorem Surfaces.orElse_of_error {e₁ : ParseError} (hx : Action.attempt x s = some (.error e₁, s₁))
    (he₁ : e₁.isRecoverable = true) (h : Surfaces e y s₁) : Surfaces e (Action.orElse x y) s := by
  obtain ⟨e', s', hy, he⟩ := h
  refine ⟨e', s', ?_, he⟩
  unfold Action.orElse
  rw [hx]
  simp only [he₁, if_true]
  exact hy

omit [Input ω] in
/-- The items before the one that fails do not matter. -/
theorem Surfaces.times {i k : Nat} {l : List α} (hi : i < k)
    (ht : Action.times x i s = some (.ok l, s₁)) (h : Surfaces e x s₁) :
    Surfaces e (times x k) s := by
  induction i generalizing k l s with
  | zero =>
    obtain ⟨k, rfl⟩ := Nat.exists_eq_succ_of_ne_zero (Nat.ne_of_gt hi)
    cases ht
    exact h.bind _
  | succ i ih =>
    obtain ⟨k, rfl⟩ := Nat.exists_eq_succ_of_ne_zero (Nat.ne_of_gt (Nat.zero_lt_of_lt hi))
    simp only [Action.times, Action.bind] at ht
    rcases h₁ : x s with _ | ⟨e₁ | a, s₂⟩ <;> simp only [h₁] at ht <;> try cases ht
    rcases h₂ : Action.times x i s₂ with _ | ⟨e₂ | l₂, s₃⟩ <;> simp only [h₂] at ht <;> cases ht
    exact .bind_of_ok h₁ ((ih (Nat.lt_of_succ_lt_succ hi) h₂).bind _)

/-- A repetition does not end with such an error. -/
theorem Surfaces.many {t : Session ω ν} {most : Option Nat} {n : Nat} (ht : Begins x t most n s)
    (h : Surfaces e (Action.attempt x) t) : Surfaces e (many x most n) s := by
  induction ht with
  | now hmost =>
    obtain ⟨e', s', hx, he, hdeepest⟩ := h
    refine ⟨e', s', ?_, he, hdeepest⟩
    unfold Action.many
    rw [if_neg hmost, hx]
    simp only [he, Bool.false_eq_true, if_false]
  | @later most n s s₁ a hmost hx hmoved ht ih =>
    obtain ⟨e', s', hrest, he⟩ := ih.bind fun l => Action.pure (a :: l)
    refine ⟨e', s', ?_, he⟩
    unfold Action.many
    rw [if_neg hmost, hx]
    simp only [if_neg hmoved]
    exact hrest

end Surfaces

end Action

/-! ### Grammars -/

namespace Grammar

open StreamParser.Action (Accounts Begins Surfaces)

variable {ρ υ ν ω α β : Type} [Input ω]

/-- The run of a grammar in which rules may be called to the depth `n`. -/
abbrev runTo (rules : ρ → Grammar ρ υ ν υ) (bound n : Nat) (g : Grammar ρ υ ν α) : Action ω ν α :=
  action (ruleAction rules bound n) bound g

/-- A run comes to a part of which `Q` is true: to a grammar and the session from which it is run, with
the depth to which rules may be called.  Rules are called to the depth `n` from the beginning. -/
inductive ComesTo (rules : ρ → Grammar ρ υ ν υ) (bound : Nat)
    (Q : (β : Type) → Nat → Grammar ρ υ ν β → Session ω ν → Prop) :
    {α : Type} → Nat → Grammar ρ υ ν α → Session ω ν → Prop
  | here {α : Type} {n : Nat} {g : Grammar ρ υ ν α} {s : Session ω ν} (h : Q α n g s) :
    ComesTo rules bound Q n g s
  | first {α β : Type} {n : Nat} {g : Grammar ρ υ ν α} {next : α → Grammar ρ υ ν β}
    {s : Session ω ν} (h : ComesTo rules bound Q n g s) : ComesTo rules bound Q n (.bind g next) s
  | next {α β : Type} {n : Nat} {g : Grammar ρ υ ν α} {next : α → Grammar ρ υ ν β}
    {s s₁ : Session ω ν} {a : α} (hg : runTo rules bound n g s = some (.ok a, s₁))
    (h : ComesTo rules bound Q n (next a) s₁) : ComesTo rules bound Q n (.bind g next) s
  | transaction {α : Type} {n : Nat} {g : Grammar ρ υ ν α} {s : Session ω ν}
    (h : ComesTo rules bound Q n g s.transacting) : ComesTo rules bound Q n (.transaction g) s
  | attempt {α : Type} {n : Nat} {g : Grammar ρ υ ν α} {s : Session ω ν}
    (h : ComesTo rules bound Q n g s.trying) : ComesTo rules bound Q n (.attempt g) s
  | orElse {α : Type} {n : Nat} {g k : Grammar ρ υ ν α} {s : Session ω ν}
    (h : ComesTo rules bound Q n g s.trying) : ComesTo rules bound Q n (.orElse g k) s
  | alternative {α : Type} {n : Nat} {g k : Grammar ρ υ ν α} {s s₁ : Session ω ν} {e : ParseError}
    (hg : Action.attempt (runTo rules bound n g) s = some (.error e, s₁))
    (he : e.isRecoverable = true) (h : ComesTo rules bound Q n k s₁) :
    ComesTo rules bound Q n (.orElse g k) s
  | label {α : Type} {n : Nat} {m : String} {g : Grammar ρ υ ν α} {s : Session ω ν}
    (h : ComesTo rules bound Q n g s) : ComesTo rules bound Q n (.label m g) s
  | commit {α : Type} {n : Nat} {g : Grammar ρ υ ν α} {s : Session ω ν}
    (h : ComesTo rules bound Q n g s.settling) : ComesTo rules bound Q n (.commit g) s
  | letGo {α : Type} {n : Nat} {g : Grammar ρ υ ν α} {s : Session ω ν}
    (h : ComesTo rules bound Q n g s.settling) : ComesTo rules bound Q n (.letGo g) s
  | rule {n : Nat} {r : ρ} {s : Session ω ν} (h : ComesTo rules bound Q n (rules r) s) :
    ComesTo rules bound Q (n + 1) (.rule r) s
  | times {α : Type} {n i k : Nat} {g : Grammar ρ υ ν α} {s s₁ : Session ω ν} {l : List α}
    (hi : i < k) (hg : Action.times (runTo rules bound n g) i s = some (.ok l, s₁))
    (h : ComesTo rules bound Q n g s₁) : ComesTo rules bound Q n (.times k g) s
  | many {α : Type} {n : Nat} {most : Option Nat} {g : Grammar ρ υ ν α} {s t : Session ω ν}
    (hg : Begins (runTo rules bound n g) t most bound s)
    (h : ComesTo rules bound Q n g t.trying) : ComesTo rules bound Q n (.many most g) s
  | remark {α : Type} {n : Nat} {tell : Moment → Nat → List ν} {g : Grammar ρ υ ν α}
    {s : Session ω ν} (h : ComesTo rules bound Q n g (s.entering tell)) :
    ComesTo rules bound Q n (.remark tell g) s

/-- A grammar that is not made of others. -/
def IsPrimitive : {α : Type} → Grammar ρ υ ν α → Prop
  | _, pattern _ => True
  | _, succeed _ => True
  | _, fail _ => True
  | _, _ => False

/-- A grammar that gives up all places to go back to. -/
def GivesUp (α : Type) (_ : Nat) (g : Grammar ρ υ ν α) (_ : Session ω ν) : Prop :=
  match g with
  | commit _ => True
  | letGo _ => True
  | _ => False

/-- The run of the grammar fails with the error. -/
def FailsWith (rules : ρ → Grammar ρ υ ν υ) (bound : Nat) (e : ParseError) (α : Type) (n : Nat)
    (g : Grammar ρ υ ν α) (s : Session ω ν) : Prop :=
  ∃ s', runTo rules bound n g s = some (.error e, s')

/-- The grammar fails by itself, and for good. -/
def Breaks (rules : ρ → Grammar ρ υ ν υ) (bound : Nat) (α : Type) (n : Nat)
    (g : Grammar ρ υ ν α) (s : Session ω ν) : Prop :=
  g.IsPrimitive ∧ ∃ e, e.isRecoverable = false ∧ FailsWith rules bound e α n g s

section

variable {I : ω → Prop} {K : Bool → ω → ω → Prop} {rules : ρ → Grammar ρ υ ν υ} {bound n : Nat}

/-- Where a grammar may be blamed for its failures. -/
abbrev AccountsFor (I : ω → Prop) (K : Bool → ω → ω → Prop) (rules : ρ → Grammar ρ υ ν υ)
    (bound n : Nat) (g : Grammar ρ υ ν α) : Prop :=
  Accounts I K (fun s => ComesTo rules bound (Breaks rules bound) n g s)
    (fun s => ComesTo rules bound GivesUp n g s) (runTo rules bound n g)

/-- Every run accounts for its failures, if the runs of rules do. -/
theorem accountsFor_of_rules (hI : Input.Sound I K)
    (hr : ∀ r, AccountsFor I K rules bound n (.rule r)) (g : Grammar ρ υ ν α) :
    AccountsFor I K rules bound n g := by
  have hprimitive : ∀ {α : Type} {g : Grammar ρ υ ν α}, g.IsPrimitive →
      (∀ s r s', I s.input → runTo rules bound n g s = some (r, s') → K false s.input s'.input) →
        AccountsFor I K rules bound n g := by
    intro α g hg hK
    exact (Action.accounts_of_keeps hK).mono (fun s hd => .here ⟨hg, hd⟩) fun _ hc => hc
  induction g with
  | pattern p =>
    cases p with
    | ok p =>
      refine hprimitive trivial fun s r s' hs h => ?_
      cases h
      exact hI.matchPattern p hs
    | error e => exact hprimitive trivial fun s r s' hs h => by cases h; exact hI.refl hs
  | succeed a => exact hprimitive trivial fun s r s' hs h => by cases h; exact hI.refl hs
  | fail e => exact hprimitive trivial fun s r s' hs h => by cases h; exact hI.refl hs
  | bind g next ihg ihnext =>
    refine (ihg.bind hI ihnext).mono (fun s hd => ?_) fun s hc => ?_
    · rcases hd with hd | ⟨a, s₁, h₁, hd⟩
      · exact .first hd
      · exact .next h₁ hd
    · rcases hc with hc | ⟨a, s₁, h₁, hc⟩
      · exact .first hc
      · exact .next h₁ hc
  | transaction g ih =>
    exact (ih.transaction hI).mono (fun _ hd => .transaction hd) fun _ hc => .transaction hc
  | attempt g ih => exact (ih.attempt hI).mono (fun _ hd => .attempt hd) fun _ hc => .attempt hc
  | orElse g k ihg ihk =>
    refine (ihg.orElse hI ihk).mono (fun s hd => ?_) fun s hc => ?_
    · rcases hd with hd | ⟨e, s₁, h₁, he, hd⟩
      · exact .orElse hd
      · exact .alternative h₁ he hd
    · rcases hc with hc | ⟨e, s₁, h₁, he, hc⟩
      · exact .orElse hc
      · exact .alternative h₁ he hc
  | label m g ih =>
    exact (ih.mapError (f := .caused m) fun e => rfl).mono (fun _ hd => .label hd) fun _ hc => .label hc
  | commit g ih => exact (ih.letGo hI).2.mono (fun _ hd => hd) fun _ _ => .here trivial
  | letGo g ih => exact (ih.letGo hI).1.mono (fun _ hd => hd) fun _ _ => .here trivial
  | rule r => exact hr r
  | times k g ih =>
    refine (ih.times hI k).mono (fun s hd => ?_) fun s hc => ?_
    · obtain ⟨i, l, s₁, hi, h₁, hd⟩ := hd
      exact .times hi h₁ hd
    · obtain ⟨i, l, s₁, hi, h₁, hc⟩ := hc
      exact .times hi h₁ hc
  | many most g ih =>
    refine (ih.many hI most bound).mono (fun s hd => ?_) fun s hc => ?_
    · obtain ⟨t, ht, hd⟩ := hd
      exact .many ht hd
    · obtain ⟨t, ht, hc⟩ := hc
      exact .many ht hc
  | remark tell g ih =>
    exact (ih.remark tell).mono (fun _ hd => .remark hd) fun _ hc => .remark hc

theorem accountsFor (hI : Input.Sound I K) (n : Nat) (g : Grammar ρ υ ν α) :
    AccountsFor I K rules bound n g := by
  induction n generalizing α with
  | zero => exact accountsFor_of_rules hI (fun r s r' s' hs h => by cases h) g
  | succ n ih =>
    refine accountsFor_of_rules hI (fun r => ?_) g
    have hrule : AccountsFor I K rules bound n (rules r) := ih (rules r)
    exact hrule.mono (fun _ hd => .rule hd) fun _ hc => .rule hc

/-- If a part of a run fails for good, the whole does, for the same deepest reason. -/
theorem ComesTo.surfaces (hI : Input.Sound I K) {e : ParseError} (he : e.isRecoverable = false)
    {g : Grammar ρ υ ν α} {s : Session ω ν}
    (h : ComesTo rules bound (FailsWith rules bound e) n g s) (hs : I s.input) :
    Surfaces e (runTo rules bound n g) s := by
  induction h with
  | here h =>
    obtain ⟨s', h⟩ := h
    exact ⟨e, s', h, he, rfl⟩
  | first h ih => exact (ih hs).bind _
  | next hg h ih =>
    obtain ⟨b, hK, -, -⟩ := accountsFor hI _ _ _ _ _ hs hg
    exact .bind_of_ok hg (ih (hI.holds hK))
  | @transaction α n g s h ih =>
    have htrying : I s.transacting.input := by
      unfold Session.transacting
      split
      · exact hs
      · exact hI.begin hs
    exact (ih htrying).transaction hI (accountsFor hI n g) hs
  | @attempt α n g s h ih => exact (ih (hI.begin hs)).attempt hI (accountsFor hI n g) hs
  | @orElse α n g k s h ih => exact ((ih (hI.begin hs)).attempt hI (accountsFor hI n g) hs).orElse
  | @alternative α n g k s s₁ e' hg he' h ih =>
    obtain ⟨b, hK, -, -⟩ := (accountsFor hI n g).attempt hI _ _ _ hs hg
    exact .orElse_of_error hg he' (ih (hI.holds hK))
  | label h ih => exact (ih hs).mapError (f := .caused _) fun e' he' => ⟨he', rfl⟩
  | @commit α n g s h ih =>
    have hfatal : ∀ e' : ParseError, e'.isRecoverable = false →
        (e'.afterCommit (Input.position s.input)).isRecoverable = false ∧
          (e'.afterCommit (Input.position s.input)).deepest = e'.deepest := by
      intro e' he'
      rw [ParseError.afterCommit_of_not_isRecoverable he']
      exact ⟨he', rfl⟩
    have hsettled : Surfaces e (Action.letGo (runTo rules bound n g)) s :=
      ih (hI.holds (hI.commit hs))
    exact hsettled.mapError hfatal
  | letGo h ih => exact ih (hI.holds (hI.commit hs))
  | rule h ih => exact ih hs
  | @times α n i k g s s₁ l hi hg h ih =>
    obtain ⟨b, hK, -, -⟩ := (accountsFor hI n g).times hI i _ _ _ hs hg
    exact .times hi hg (ih (hI.holds hK))
  | @many α n most g s t hg h ih =>
    have ht := hg.holds hI (accountsFor hI n g) hs
    exact .many hg ((ih (hI.begin ht)).attempt hI (accountsFor hI n g) ht)
  | remark h ih => exact (ih hs).remark

/-- Failures for good and their reasons go together: if a part of the run fails for good, so does the
whole, for the same deepest reason; and if the whole fails for good, the run comes to a part that
fails for good by itself, or commits. -/
def FatalSurfaces (rules : ρ → Grammar ρ υ ν υ) (bound : Nat) (g : Grammar ρ υ ν α)
    (s : Session ω ν) : Prop :=
  (∀ e, e.isRecoverable = false → ComesTo rules bound (FailsWith rules bound e) bound g s →
    ∃ e' s', run rules bound g s = some (.error e', s') ∧ e'.isRecoverable = false ∧
      e'.deepest = e.deepest) ∧
  ∀ e s', run rules bound g s = some (.error e, s') → e.isRecoverable = false →
    ComesTo rules bound (Breaks rules bound) bound g s ∨ ComesTo rules bound GivesUp bound g s

theorem fatalSurfaces_of_sound (hI : Input.Sound I K) (g : Grammar ρ υ ν α) {s : Session ω ν}
    (hs : I s.input) : FatalSurfaces rules bound g s := by
  refine ⟨fun e he h => h.surfaces hI he hs, fun e s' h he => ?_⟩
  obtain ⟨b, -, hcommits, hblame⟩ := accountsFor hI bound g s _ s' hs h
  rcases hblame e rfl he with hb | hbreaks
  · exact .inr (hcommits hb)
  · exact .inl hbreaks

end

/-- **Fatal failures surface.**  Let a grammar with rules be run, with commits or without: over a cursor
at any place of any text, or over a stream with any reachable tokenizer and any number of trials open.

* If any part of the run fails with an error from which there is no recovery, the whole run fails with
  such an error, and the deepest of its causes is that of the part's error.
* If the whole run fails with an error from which there is no recovery, the run comes to a pattern or
  another primitive that fails with such an error, or it commits. -/
theorem fatal_failures_surface (rules : ρ → Grammar ρ υ ν υ) (bound : Nat)
    (g : Grammar ρ υ ν α) :
    (∀ s : Session Cursor ν, FatalSurfaces rules bound g s) ∧
      ∀ (σ : Type) [Source σ] (t : Tokenizer σ) (trials : Nat) (journal : List ν), t.Reachable →
        FatalSurfaces rules bound g (⟨⟨t, trials⟩, journal⟩ : Session (Stream σ) ν) :=
  ⟨fun _ => fatalSurfaces_of_sound Cursor.sound g trivial,
    fun _ _ _ _ _ ht => fatalSurfaces_of_sound Stream.sound g ht.ok⟩

/-- The letter `a` before `b`, or nothing. -/
def pairOrNothing : Grammar Empty Unit Empty (Option String) :=
  ((letter 'a').skip (letter 'b')).zeroOrOne
where
  letter (c : Char) : Grammar Empty Unit Empty String :=
    pattern (.ok ⟨String.singleton c, .chars (.single c)⟩)

/-- A tokenizer that gets the letter `a`, and then no more. -/
def severed : Tokenizer Script :=
  ⟨⟨[0x61], [.hand 1, .fail ⟨.other, "boom"⟩], none⟩, .empty 8, .uninitialized, false, .empty 1, none,
    []⟩

/-- The second letter cannot be read, and that is not taken for nothing. -/
theorem severed_fails :
    severed.Reachable ∧
      ComesTo Empty.elim 3 (FailsWith Empty.elim 3 (.token (.io ⟨.other, "boom"⟩))) 3 pairOrNothing
        (⟨⟨severed, 0⟩, []⟩ : Session (Stream Script) Empty) ∧
      ∃ e s', run Empty.elim 3 pairOrNothing
          (⟨⟨severed, 0⟩, []⟩ : Session (Stream Script) Empty) = some (.error e, s') ∧
        e.isRecoverable = false ∧ e.deepest = .token (.io ⟨.other, "boom"⟩) := by
  have hreachable : severed.Reachable := .fresh (.inr ⟨⟨8, 1, none⟩, rfl⟩)
  let s : Session (Stream Script) Empty := Session.trying ⟨⟨severed, 0⟩, []⟩
  let read (c : Char) : Action (Stream Script) Empty String :=
    runTo Empty.elim 3 3 (pairOrNothing.letter c)
  have hfirst : (read 'a' s).map Prod.fst = some (.ok "a") := by decide +kernel
  have hsecond : ((read 'a' s).bind fun x => read 'b' x.2).map Prod.fst =
      some (.error (.token (.io ⟨.other, "boom"⟩))) := by decide +kernel
  obtain ⟨⟨r, s₁⟩, h₁, hr⟩ := Option.map_eq_some_iff.1 hfirst
  obtain rfl : r = .ok "a" := hr
  rw [h₁] at hsecond
  obtain ⟨⟨r, s₂⟩, h₂, hr⟩ := Option.map_eq_some_iff.1 hsecond
  obtain rfl : r = .error _ := hr
  have hcomes : ComesTo Empty.elim 3 (FailsWith Empty.elim 3 (.token (.io ⟨.other, "boom"⟩))) 3
      pairOrNothing (⟨⟨severed, 0⟩, []⟩ : Session (Stream Script) Empty) :=
    .orElse (.first (.transaction (.next h₁ (.first (.here ⟨s₂, h₂⟩)))))
  obtain ⟨e, s', hrun, he⟩ :=
    ((fatal_failures_surface Empty.elim 3 pairOrNothing).2 Script severed 0 [] hreachable).1 _ rfl hcomes
  exact ⟨hreachable, hcomes, e, s', hrun, he⟩

end Grammar

end StreamParser
