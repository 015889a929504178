import StreamParser.Proofs.Grammar.Balance
import StreamParser.Proofs.Tokenizer.Failure

/-!
# How a part of a run ends

Some tokens are decisive: when a token of a pattern in `q` has been consumed, a grammar commits
itself.  `Action.Ends q Q x` says that whenever the part `x` of a run ends, `Q` is true of three
things: whether it has consumed a decisive token, whether it has committed, and its result.

The ways to end that matter are these.

* `Quiet`: no decisive token, no commit.  `Opens`: no commit yet, and a decisive token if it succeeds.
* `Loose`: it has committed if there was a decisive token, but may fail with any tame error.
  `Firm`: after a decisive token it only fails for good.  `Final`: it only fails for good.
* `Pledged`: it has committed, and only fails for good.

An attempt makes a loose part firm (`Ends.attempt`); a repetition of loose parts is final
(`Ends.many`); and what opens and is pledged afterwards is firm
(`Ends.opens_bind_pledged`).  `Ends.attempt_error` tells where the failure of an attempt leaves the
stream.
-/

namespace StreamParser

namespace ParseError

/-- A failure for good: that of a part that was committed, or one after which the tokenizer cannot go
on, which is reported as it is. -/
def IsFinal (e : ParseError) : Prop :=
  (∃ n c, e = .committed n c ∧ c.isRecoverable = true) ∨
    ∃ e', e = .token e' ∧ (e'.isShortage = true ∨ e' = .noSuchElement .closed)

/-- A failure that can be recovered from, or one for good. -/
def IsTame (e : ParseError) : Prop := e.isRecoverable = true ∨ e.IsFinal

variable {e : ParseError}

theorem IsFinal.not_isRecoverable (h : e.IsFinal) : e.isRecoverable = false := by
  rcases h with ⟨n, c, rfl, -⟩ | ⟨e', rfl, h | rfl⟩
  · rfl
  · cases e' with
    | io e => rfl
    | windowFull n k => rfl
    | noSuchElement reason =>
      cases reason with
      | exceedsBuffer n => rfl
      | exhausted => cases h
      | closed => rfl
    | inputMismatch p => cases h
    | invalidUtf8 n => cases h
    | staleMark n => cases h
    | pattern e => cases h
  · rfl

theorem IsFinal.isTame (h : e.IsFinal) : e.IsTame := .inr h

/-- A tame failure that is not for good can be recovered from. -/
theorem IsTame.isFinal (h : e.IsTame) (he : ¬ e.isRecoverable = true) : e.IsFinal :=
  h.resolve_left he

/-- After a commit every tame failure is for good. -/
theorem IsTame.afterCommit (h : e.IsTame) (n : Nat) : (e.afterCommit n).IsFinal := by
  rcases h with h | h
  · refine .inl ⟨n, e, ?_, h⟩
    unfold ParseError.afterCommit
    rw [if_pos h]
  · rw [afterCommit_of_not_isRecoverable h.not_isRecoverable]
    exact h

end ParseError

namespace Action

variable {σ ν α β : Type} [Source σ] {q : String → Bool}

/-- Whenever the part ends, `Q` holds of whether it has consumed a decisive token, of whether it has
committed, and of its result. -/
def Ends (q : String → Bool) (Q : Bool → Bool → Except ParseError α → Prop)
    (x : Action (Stream σ) ν α) : Prop :=
  ∀ s r s', s.input.tokenizer.window.Ok → x s = some (r, s') →
    ∃ told committed, s.input.tokenizer.Notes q told s'.input.tokenizer ∧
      Stream.Settled (·.window.Ok) committed s.input s'.input ∧ Q told committed r

/-! ### Rules -/

section Rules

variable {Q R : Bool → Bool → Except ParseError α → Prop} {x : Action (Stream σ) ν α}

omit [Source σ] in
theorem Ends.mono (hx : Ends q Q x) (h : ∀ told committed r, Q told committed r →
    R told committed r) : Ends q R x := by
  intro s r s' hs hr
  obtain ⟨told, committed, hnotes, hsettled, hQ⟩ := hx s r s' hs hr
  exact ⟨told, committed, hnotes, hsettled, h _ _ _ hQ⟩

omit [Source σ] in
theorem ends_pure {a : α} (h : Q false false (.ok a)) :
    Ends q Q (pure a : Action (Stream σ) ν α) := by
  intro s r s' hs hr
  cases hr
  exact ⟨false, false, .of_eq rfl, .refl hs, h⟩

omit [Source σ] in
theorem ends_fail {e : ParseError} (h : Q false false (.error e)) :
    Ends q Q (fail e : Action (Stream σ) ν α) := by
  intro s r s' hs hr
  cases hr
  exact ⟨false, false, .of_eq rfl, .refl hs, h⟩

omit [Source σ] in
/-- What is said of two parts in a row follows from what is said of each. -/
theorem Ends.bind {f : α → Action (Stream σ) ν β}
    {R : Bool → Bool → Except ParseError β → Prop}
    {S : Bool → Bool → Except ParseError β → Prop} (hx : Ends q Q x)
    (hf : ∀ a, Ends q R (f a))
    (herror : ∀ told committed e, Q told committed (.error e) → S told committed (.error e))
    (hok : ∀ told committed a told' committed' r, Q told committed (.ok a) →
      R told' committed' r → S (told || told') (committed || committed') r) :
    Ends q S (bind x f) := by
  intro s r s' hs hr
  unfold Action.bind at hr
  split at hr
  · cases hr
  · rename_i a s₁ h₁
    obtain ⟨told, committed, hnotes, hsettled, hQ⟩ := hx s _ s₁ hs h₁
    obtain ⟨told', committed', hnotes', hsettled', hR⟩ := hf a s₁ r s' hsettled.holds hr
    exact ⟨_, _, hnotes.trans hnotes', hsettled.trans hsettled', hok _ _ a _ _ r hQ hR⟩
  · rename_i e s₁ h₁
    cases hr
    obtain ⟨told, committed, hnotes, hsettled, hQ⟩ := hx s _ s' hs h₁
    exact ⟨told, committed, hnotes, hsettled, herror _ _ e hQ⟩

/-- What a trial does when it ends is not told. -/
theorem notes_attempt {s s₁ s' : Session (Stream σ) ν} {r r₁ : Except ParseError α}
    (hx : x (begun s) = some (r₁, s₁)) (h : attempt x s = some (r, s')) (q : String → Bool) :
    s₁.input.tokenizer.Notes q false s'.input.tokenizer := by
  cases r₁ with
  | ok a =>
    rw [attempt_of_ok hx] at h
    cases h
    exact .of_eq rfl
  | error e =>
    rw [attempt_of_error hx] at h
    cases h
    have hreset := Tokenizer.notes_reset q s₁.input.tokenizer s.input.begin.1
    show s₁.input.tokenizer.Notes q false (Stream.failed s.input.begin.1 e s₁.input).2.tokenizer
    unfold Stream.failed
    simp only
    split
    · rcases hr : s₁.input.tokenizer.reset s.input.begin.1 with ⟨stale | _, t⟩ <;>
        rw [hr] at hreset
      · exact hreset.trans_quiet (.of_eq rfl)
      · exact hreset.trans_quiet (.of_eq rfl)
    · exact .of_eq rfl

/-- What has happened if an attempt answers. -/
theorem Ends.attempt_inv (hx : Ends q Q x) {s s' : Session (Stream σ) ν} {r' : Except ParseError α}
    (hs : s.input.tokenizer.window.Ok) (h : attempt x s = some (r', s')) :
    ∃ told committed n₁ r, s.input.tokenizer.Notes q told s'.input.tokenizer ∧
      Stream.Settled (·.window.Ok) committed s.input s'.input ∧ Q told committed r ∧
      Ending committed s.input.position n₁ r r' s'.input.position := by
  rcases h₁ : x (begun s) with _ | ⟨r, s₁⟩
  · rw [attempt_of_none h₁] at h
    cases h
  · obtain ⟨told, committed, hnotes, hsettled, hQ⟩ := hx _ r s₁ hs.mark h₁
    obtain ⟨r₂, s₂, hr₂, hsettled', hends⟩ :=
      attempt_ends Tokenizer.stable_ok (s := s) hs h₁ hsettled
    rw [h] at hr₂
    cases hr₂
    have hnotes' : s.input.tokenizer.Notes q told s₁.input.tokenizer := hnotes
    exact ⟨told, committed, _, r, hnotes'.trans_quiet (notes_attempt h₁ h q), hsettled', hQ, hends⟩

/-- What is said of an attempt follows from how it ends. -/
theorem Ends.attempt_of (hx : Ends q Q x) (h : ∀ told committed n n₁ n' r r',
    Q told committed r → Ending committed n n₁ r r' n' → R told committed r') :
    Ends q R (attempt x) := by
  intro s r s' hs hr
  obtain ⟨told, committed, n₁, r₁, hnotes, hsettled, hQ, hends⟩ := hx.attempt_inv hs hr
  exact ⟨told, committed, hnotes, hsettled, h _ _ _ _ _ _ _ hQ hends⟩

/-- A transaction does what is tried, or what an attempt does. -/
theorem Ends.transaction_of (hx : Ends q Q x) (hattempt : Ends q Q (attempt x)) :
    Ends q Q (transaction x) := by
  intro s r s' hs hr
  unfold Action.transaction at hr
  split at hr
  · exact hx s r s' hs hr
  · exact hattempt s r s' hs hr

end Rules

/-! ### Ways to end -/

/-- Nothing decisive has happened. -/
def Quiet (told committed : Bool) (r : Except ParseError α) : Prop :=
  told = false ∧ committed = false ∧ ∀ e, r = .error e → e.IsTame

/-- A decisive token was consumed if there is a success, and the commit is to follow. -/
def Opens (told committed : Bool) (r : Except ParseError α) : Prop :=
  told = r.toBool ∧ committed = false ∧ ∀ e, r = .error e → e.IsTame

/-- A decisive token and a commit go together. -/
def Loose (told committed : Bool) (r : Except ParseError α) : Prop :=
  told = committed ∧ ∀ e, r = .error e → e.IsTame

/-- Moreover, after both there are only failures for good. -/
def Firm (told committed : Bool) (r : Except ParseError α) : Prop :=
  told = committed ∧ ∀ e, r = .error e → e.IsTame ∧ (told = true → e.IsFinal)

/-- Moreover, there are only failures for good. -/
def Final (told committed : Bool) (r : Except ParseError α) : Prop :=
  told = committed ∧ ∀ e, r = .error e → e.IsFinal

/-- There was a commit, and there are only failures for good. -/
def Pledged (committed : Bool) (r : Except ParseError α) : Prop :=
  committed = true ∧ ∀ e, r = .error e → e.IsFinal

section Ways

variable {told committed : Bool} {r : Except ParseError α}

theorem Quiet.firm (h : Quiet told committed r) : Firm told committed r := by
  refine ⟨h.1.trans h.2.1.symm, fun e he => ⟨h.2.2 e he, fun htold => ?_⟩⟩
  rw [h.1] at htold
  cases htold

theorem Firm.loose (h : Firm told committed r) : Loose told committed r :=
  ⟨h.1, fun e he => (h.2 e he).1⟩

theorem Final.firm (h : Final told committed r) : Firm told committed r :=
  ⟨h.1, fun e he => ⟨(h.2 e he).isTame, fun _ => h.2 e he⟩⟩

/-- After a firm failure that can be recovered from nothing decisive has happened. -/
theorem Firm.of_isRecoverable {e : ParseError}
    (h : Firm told committed (.error e : Except ParseError α)) (he : e.isRecoverable = true) :
    told = false ∧ committed = false := by
  have hno : told = false := by
    rw [← Bool.not_eq_true]
    intro htold
    have := ((h.2 e rfl).2 htold).not_isRecoverable
    rw [he] at this
    cases this
  exact ⟨hno, h.1.symm.trans hno⟩

end Ways

/-! ### Parts that end in one of the ways -/

variable {x : Action (Stream σ) ν α}

omit [Source σ] in
theorem quiet_pure (a : α) : Ends q Quiet (pure a : Action (Stream σ) ν α) :=
  ends_pure ⟨rfl, rfl, fun _ he => by cases he⟩

omit [Source σ] in
theorem final_pure (a : α) : Ends q Final (pure a : Action (Stream σ) ν α) :=
  ends_pure ⟨rfl, fun _ he => by cases he⟩

omit [Source σ] in
/-- A failure that can be recovered from. -/
theorem quiet_fail {e : ParseError} (h : e.isRecoverable = true) :
    Ends q Quiet (fail e : Action (Stream σ) ν α) := by
  refine ends_fail ⟨rfl, rfl, fun _ he => ?_⟩
  cases he
  exact .inl h

/-- A token may be decisive; if it is not there, the failure is tame. -/
theorem ends_matchPattern {p : Pattern} (hp : p.asciiOnly = false) :
    Ends q (fun told committed r => told = (r.toBool && q p.source) ∧ committed = false ∧
      ∀ e, r = .error e → e.IsTame) (matchPattern p : Action (Stream σ) ν String) := by
  intro s r s' hs hr
  cases hr
  have hkept := Stream.kept_matchPattern (I := (·.window.Ok)) Tokenizer.stable_ok hs
    (p := p) trivial
  have hnotes := Tokenizer.notes_rawNext hs q p
  have herror := fun e => Tokenizer.error_of_rawNext (e := e) hp hs
  refine ⟨_, false, ?_, Stream.settled_false_iff.2 hkept, rfl, rfl, ?_⟩
  · show s.input.tokenizer.Notes q ((s.input.matchPattern p).1.toBool && q p.source)
      (s.input.matchPattern p).2.tokenizer
    unfold Stream.matchPattern
    rcases hr : s.input.tokenizer.rawNext p with ⟨e | token, t⟩ <;> rw [hr] at hnotes
    · exact hnotes
    · exact hnotes
  · show ∀ e, (s.input.matchPattern p).1 = .error e → e.IsTame
    unfold Stream.matchPattern
    rcases hr : s.input.tokenizer.rawNext p with ⟨e | token, t⟩ <;> intro e' he' <;> cases he'
    rcases herror e (congrArg Prod.fst hr) with he | he
    · exact .inl he
    · exact .inr (.inr ⟨e, rfl, he⟩)

theorem quiet_matchPattern {p : Pattern} (hp : p.asciiOnly = false) (hq : q p.source = false) :
    Ends q Quiet (matchPattern p : Action (Stream σ) ν String) :=
  (ends_matchPattern hp).mono fun told committed r ⟨htold, hrest⟩ =>
    ⟨by rw [htold, hq, Bool.and_false], hrest⟩

theorem opens_matchPattern {p : Pattern} (hp : p.asciiOnly = false) (hq : q p.source = true) :
    Ends q Opens (matchPattern p : Action (Stream σ) ν String) :=
  (ends_matchPattern hp).mono fun told committed r ⟨htold, hrest⟩ =>
    ⟨by rw [htold, hq, Bool.and_true], hrest⟩

section Bind

variable {f : α → Action (Stream σ) ν β}

omit [Source σ]

/-- After a quiet part all depends on what follows. -/
theorem Ends.quiet_bind {R : Bool → Bool → Except ParseError β → Prop} (hx : Ends q Quiet x)
    (hf : ∀ a, Ends q R (f a))
    (h : ∀ told committed e, Quiet told committed (.error e : Except ParseError α) →
      R told committed (.error e)) : Ends q R (Action.bind x f) := by
  refine hx.bind hf h ?_
  rintro told committed a told' committed' r ⟨rfl, rfl, -⟩ hR
  rw [Bool.false_or, Bool.false_or]
  exact hR

theorem Ends.quiet_bind_quiet (hx : Ends q Quiet x) (hf : ∀ a, Ends q Quiet (f a)) :
    Ends q Quiet (Action.bind x f) :=
  hx.quiet_bind hf fun _ _ _ h => ⟨h.1, h.2.1, fun e he => h.2.2 e (by cases he; rfl)⟩

theorem Ends.quiet_bind_opens (hx : Ends q Quiet x) (hf : ∀ a, Ends q Opens (f a)) :
    Ends q Opens (Action.bind x f) :=
  hx.quiet_bind hf fun _ _ _ h => ⟨h.1, h.2.1, fun e he => h.2.2 e (by cases he; rfl)⟩

theorem Ends.quiet_bind_firm (hx : Ends q Quiet x) (hf : ∀ a, Ends q Firm (f a)) :
    Ends q Firm (Action.bind x f) := by
  refine hx.quiet_bind hf fun told committed e h => ?_
  have hfirm := h.firm
  exact ⟨hfirm.1, fun e he => hfirm.2 e (by cases he; rfl)⟩

/-- In a row of parts decisive tokens and commits go together if they do in each of them, and the
failures are theirs. -/
theorem Ends.paired_bind (P : ParseError → Prop)
    (hx : Ends q (fun told committed r => told = committed ∧ ∀ e, r = .error e → P e) x)
    (hf : ∀ a, Ends q (fun told committed r => told = committed ∧ ∀ e, r = .error e → P e) (f a)) :
    Ends q (fun told committed r => told = committed ∧ ∀ e, r = .error e → P e)
      (Action.bind x f) := by
  refine hx.bind hf (fun told committed e h => ⟨h.1, fun e he => h.2 e (by cases he; rfl)⟩) ?_
  rintro told committed a told' committed' r ⟨rfl, -⟩ ⟨rfl, hr⟩
  exact ⟨rfl, hr⟩

/-- Parts of which none fails but for good. -/
theorem Ends.final_bind_final (hx : Ends q Final x) (hf : ∀ a, Ends q Final (f a)) :
    Ends q Final (Action.bind x f) := Ends.paired_bind ParseError.IsFinal hx hf

theorem Ends.loose_bind_loose (hx : Ends q Loose x) (hf : ∀ a, Ends q Loose (f a)) :
    Ends q Loose (Action.bind x f) := Ends.paired_bind ParseError.IsTame hx hf

/-- To change the output changes nothing else. -/
theorem Ends.firm_map (hx : Ends q Firm x) (g : α → β) :
    Ends q Firm (Action.bind x fun a => pure (g a)) := by
  have hpure : ∀ a, Ends q (fun told committed r => told = false ∧ committed = false ∧
      ∃ b, r = .ok b) (pure (g a) : Action (Stream σ) ν β) := fun a => ends_pure ⟨rfl, rfl, _, rfl⟩
  refine hx.bind hpure ?_ ?_
  · exact fun told committed e h => ⟨h.1, fun e he => h.2 e (by cases he; rfl)⟩
  · rintro told committed a told' committed' r ⟨rfl, -⟩ ⟨rfl, rfl, b, rfl⟩
    exact ⟨rfl, fun _ he => by cases he⟩

/-- The commit that follows a decisive token. -/
theorem Ends.opens_bind_pledged (hx : Ends q Opens x)
    (hf : ∀ a, Ends q (fun _ => Pledged) (f a)) : Ends q Firm (Action.bind x f) := by
  refine hx.bind hf ?_ ?_
  · rintro told committed e ⟨rfl, rfl, he⟩
    exact ⟨rfl, fun e' he' => ⟨he e' (by cases he'; rfl), fun hno => by cases hno⟩⟩
  · rintro told committed a told' committed' r ⟨rfl, rfl, -⟩ ⟨rfl, hr⟩
    exact ⟨rfl, fun e he => ⟨(hr e he).isTame, fun _ => hr e he⟩⟩

end Bind

/-- An attempt makes it sure that after a commit there are only failures for good. -/
theorem Ends.attempt (hx : Ends q Loose x) : Ends q Firm (attempt x) := by
  refine hx.attempt_of ?_
  rintro told committed n n₁ n' r r' ⟨rfl, htame⟩ hends
  cases hends with
  | ok a => exact ⟨rfl, fun e he => by cases he⟩
  | back e hno =>
    refine ⟨rfl, fun e' he' => ?_⟩
    cases he'
    refine ⟨htame e rfl, fun hyes => ?_⟩
    rw [hno] at hyes
    cases hyes
  | stay e hyes =>
    refine ⟨rfl, fun e' he' => ?_⟩
    cases he'
    have hfinal := (htame e rfl).afterCommit n₁
    exact ⟨hfinal.isTame, fun _ => hfinal⟩

/-- An attempt that fails goes back, unless there was a decisive token; then it fails for good. -/
theorem Ends.attempt_error (hx : Ends q Loose x) {s s' : Session (Stream σ) ν} {e : ParseError}
    (hs : s.input.tokenizer.window.Ok) (h : Action.attempt x s = some (.error e, s')) :
    ∃ told, s.input.tokenizer.Notes q told s'.input.tokenizer ∧
      Stream.Settled (·.window.Ok) told s.input s'.input ∧
      (told = false → s'.input.position = s.input.position) ∧ (told = true → e.IsFinal) := by
  obtain ⟨told, committed, n₁, r, hnotes, hsettled, ⟨rfl, htame⟩, hends⟩ := hx.attempt_inv hs h
  refine ⟨told, hnotes, hsettled, ?_⟩
  rcases r with e₁ | a
  · rcases hends.of_error with ⟨rfl, -, hposition⟩ | ⟨rfl, hr, -⟩
    · exact ⟨fun _ => hposition, fun hyes => by cases hyes⟩
    · cases hr
      exact ⟨fun hno => absurd hno Bool.noConfusion, fun _ => (htame e₁ rfl).afterCommit n₁⟩
  · cases hends.of_ok.1

/-- Before a commit an attempt reports what it tries. -/
theorem Ending.eq_of_not_committed {n n₁ n' : Nat} {r r' : Except ParseError α}
    (h : Ending false n n₁ r r' n') : r' = r := by
  cases h with
  | ok a => rfl
  | back e hno => rfl
  | stay e hyes => cases hyes

theorem Ends.uncommitted_transaction {Q : Bool → Bool → Except ParseError α → Prop} (hx : Ends q Q x)
    (hQ : ∀ told committed r, Q told committed r → committed = false) :
    Ends q Q (transaction x) := by
  refine hx.transaction_of (hx.attempt_of ?_)
  intro told committed n n₁ n' r r' h hends
  obtain rfl := hQ _ _ _ h
  rw [hends.eq_of_not_committed]
  exact h

theorem Ends.quiet_transaction (hx : Ends q Quiet x) : Ends q Quiet (transaction x) :=
  hx.uncommitted_transaction fun _ _ _ h => h.2.1

theorem Ends.opens_transaction (hx : Ends q Opens x) : Ends q Opens (transaction x) :=
  hx.uncommitted_transaction fun _ _ _ h => h.2.1

theorem Ends.firm_transaction (hx : Ends q Firm x) : Ends q Firm (transaction x) :=
  hx.transaction_of (hx.mono fun _ _ _ h => h.loose).attempt

theorem Ends.loose_transaction (hx : Ends q Loose x) : Ends q Loose (transaction x) :=
  hx.transaction_of (hx.attempt.mono fun _ _ _ h => h.loose)

/-- The second alternative is only tried if nothing decisive has happened. -/
theorem Ends.orElse_of {y : Action (Stream σ) ν α} {R : Bool → Bool → Except ParseError α → Prop}
    (hx : Ends q Loose x) (hy : Ends q R y) (hok : ∀ b a, R b b (.ok a))
    (hfinal : ∀ b e, e.IsFinal → R b b (.error e)) : Ends q R (orElse x y) := by
  intro s r s' hs hr
  unfold Action.orElse at hr
  rcases h₁ : Action.attempt x s with _ | ⟨e | a, s₁⟩ <;> rw [h₁] at hr
  · cases hr
  · obtain ⟨told, committed, hnotes, hsettled, hfirm⟩ := hx.attempt s _ s₁ hs h₁
    by_cases he : e.isRecoverable = true
    · obtain ⟨rfl, rfl⟩ := hfirm.of_isRecoverable he
      simp only [if_pos he] at hr
      obtain ⟨told', committed', hnotes', hsettled', hR⟩ := hy s₁ r s' hsettled.holds hr
      refine ⟨told', committed', hnotes.quiet_trans hnotes', ?_, hR⟩
      have := hsettled.trans hsettled'
      rwa [Bool.false_or] at this
    · simp only [if_neg he] at hr
      cases hr
      obtain ⟨rfl, htame⟩ := hfirm
      exact ⟨told, told, hnotes, hsettled, hfinal told e ((htame e rfl).1.isFinal he)⟩
  · cases hr
    obtain ⟨told, committed, hnotes, hsettled, rfl, -⟩ := hx.attempt s _ s' hs h₁
    exact ⟨told, told, hnotes, hsettled, hok told a⟩

theorem Ends.firm_orElse {y : Action (Stream σ) ν α} (hx : Ends q Loose x) (hy : Ends q Firm y) :
    Ends q Firm (orElse x y) :=
  hx.orElse_of hy (fun _ _ => ⟨rfl, fun _ he => by cases he⟩)
    fun _ _ hfinal => ⟨rfl, fun _ he => by cases he; exact ⟨hfinal.isTame, fun _ => hfinal⟩⟩

/-- If the second alternative does not fail but for good, the choice does not either. -/
theorem Ends.final_orElse {y : Action (Stream σ) ν α} (hx : Ends q Loose x) (hy : Ends q Final y) :
    Ends q Final (orElse x y) :=
  hx.orElse_of hy (fun _ _ => ⟨rfl, fun _ he => by cases he⟩)
    fun _ _ hfinal => ⟨rfl, fun _ he => by cases he; exact hfinal⟩

/-- A repetition ends when there is no more to read, or it fails for good. -/
theorem Ends.many (hx : Ends q Loose x) (most : Option Nat) (n : Nat) :
    Ends q Final (many x most n) := by
  induction n generalizing most with
  | zero =>
    intro s r s' hs hr
    cases hr
  | succ n ih =>
    intro s r s' hs hr
    unfold Action.many at hr
    by_cases hmost : most = some 0
    · rw [if_pos hmost] at hr
      cases hr
      exact ⟨false, false, .of_eq rfl, .refl hs, rfl, fun _ he => by cases he⟩
    · rw [if_neg hmost] at hr
      rcases h₁ : Action.attempt x s with _ | ⟨e | a, s₁⟩ <;> rw [h₁] at hr
      · cases hr
      · obtain ⟨told, committed, hnotes, hsettled, hfirm⟩ := hx.attempt s _ s₁ hs h₁
        by_cases he : e.isRecoverable = true
        · obtain ⟨rfl, rfl⟩ := hfirm.of_isRecoverable he
          simp only [if_pos he] at hr
          cases hr
          exact ⟨false, false, hnotes, hsettled, rfl, fun _ he => by cases he⟩
        · simp only [if_neg he] at hr
          cases hr
          obtain ⟨rfl, htame⟩ := hfirm
          refine ⟨told, told, hnotes, hsettled, rfl, fun e' he' => ?_⟩
          cases he'
          exact (htame e rfl).1.isFinal he
      · obtain ⟨told, committed, hnotes, hsettled, rfl, -⟩ := hx.attempt s _ s₁ hs h₁
        simp only at hr
        split at hr
        · cases hr
          exact ⟨told, told, hnotes, hsettled, rfl, fun _ he => by cases he⟩
        · have hrest := (ih (most.map (· - 1))).final_bind_final fun l =>
            final_pure (q := q) (a :: l)
          obtain ⟨told', committed', hnotes', hsettled', rfl, hfinal⟩ :=
            hrest s₁ r s' hsettled.holds hr
          exact ⟨_, _, hnotes.trans hnotes', hsettled.trans hsettled', rfl, hfinal⟩

/-- What is committed fails only for good. -/
theorem Ends.commit (hx : Ends q Loose x) : Ends q (fun _ => Pledged) (commit x) := by
  intro s r s' hs hr
  have hnotes : s.input.tokenizer.Notes q false (Input.commit s.input).tokenizer :=
    Tokenizer.notes_commit q s.input.tokenizer
  have hsettled := Stream.settled_commit Tokenizer.lasting_ok hs
  unfold Action.commit Action.mapError Action.letGo at hr
  rcases h₁ : x { s with input := Input.commit s.input } with _ | ⟨e | a, s₁⟩ <;> rw [h₁] at hr <;>
    cases hr <;>
    obtain ⟨told, committed, hnotes', hsettled', -, htame⟩ := hx _ _ s' hsettled.holds h₁
  · refine ⟨told, true, hnotes.quiet_trans hnotes', hsettled.trans hsettled', rfl, ?_⟩
    intro e' he'
    cases he'
    exact (htame e rfl).afterCommit _
  · exact ⟨told, true, hnotes.quiet_trans hnotes', hsettled.trans hsettled', rfl,
      fun _ he => by cases he⟩

end Action

end StreamParser
