import StreamParser.Proofs.Error.Causes
import StreamParser.Proofs.Grammar.Program
import StreamParser.Proofs.Grammar.Trials
import StreamParser.Proofs.Tokenizer.Reachable

/-!
# Attempts balance

A program over a stream may open attempts inside of attempts and commit in between, in any order.
Each attempt sets a mark, and a commit gives up the marks of all attempts that are open.

* `Program.commits` tells whether a run of a program commits.
* `Stream.Settled` is what a part of a run leaves behind: the trials that were open are open, and the
  marks that were held are held, unless the part has committed; then no mark is held.  Each step of
  a program has this (`Program.settled_run`).
* `Action.attempt_ends` says from it what an attempt makes of the result of what it tries, and
  `Program.attempt_balances` puts this together for attempts of any programs from any reachable
  tokenizer.
-/

namespace StreamParser

variable {σ : Type}

/-- A property of tokenizers that the operations of a grammar and commits keep. -/
structure Tokenizer.Lasting [Source σ] (I : Tokenizer σ → Prop) (P : Pattern → Prop) : Prop extends
    Stable I P where
  commit : ∀ t, I t → I t.commit

/-- To be well formed is such a property. -/
theorem Tokenizer.lasting_ok [Source σ] :
    Lasting (fun t : Tokenizer σ => t.window.Ok) fun _ => True where
  toStable := stable_ok
  commit t h := by
    rw [window_commit]
    exact h.forget

/-! ### Streams -/

namespace Stream

/-- From one stream to a later one the trials are the same, and the later tokenizer has a property.
Of the marks all are held as before, or none if there was a commit. -/
structure Settled (I : Tokenizer σ → Prop) (committed : Bool) (s s' : Stream σ) : Prop where
  holds : I s'.tokenizer
  capacity_eq : s'.tokenizer.window.capacity = s.tokenizer.window.capacity
  trials_eq : s'.trials = s.trials
  marks_eq : s'.tokenizer.window.marks = if committed then [] else s.tokenizer.window.marks

variable {I : Tokenizer σ → Prop} {P : Pattern → Prop} {b b' : Bool} {s s' s'' : Stream σ}

/-- Without a commit the marks are kept. -/
theorem settled_false_iff : Settled I false s s' ↔ Kept I s s' := by
  constructor
  · intro h
    exact ⟨h.holds, h.marks_eq, h.capacity_eq, h.trials_eq⟩
  · intro h
    exact ⟨h.holds, h.capacity_eq, h.trials_eq, h.marks_eq⟩

theorem Settled.refl (h : I s.tokenizer) : Settled I false s s := settled_false_iff.2 (.refl h)

theorem Settled.trans (h : Settled I b s s') (h' : Settled I b' s' s'') :
    Settled I (b || b') s s'' where
  holds := h'.holds
  capacity_eq := h'.capacity_eq.trans h.capacity_eq
  trials_eq := h'.trials_eq.trans h.trials_eq
  marks_eq := by
    rw [h'.marks_eq, h.marks_eq]
    -- the last commit decides
    cases b <;> cases b' <;> rfl

variable [Source σ]

theorem settled_commit (hI : Tokenizer.Lasting I P) (h : I s.tokenizer) :
    Settled I true s (Input.commit s) where
  holds := hI.commit _ h
  capacity_eq := by
    show s.tokenizer.commit.window.capacity = _
    rw [Tokenizer.window_commit]
    rfl
  trials_eq := rfl
  marks_eq := by
    show s.tokenizer.commit.window.marks = _
    rw [Tokenizer.window_commit]
    rfl

/-- A trial that succeeds leaves everything where it is. -/
theorem settled_succeeded (hI : Tokenizer.Stable I P) (h : I s.tokenizer)
    (hs : Settled I b s.begin.2 s') :
    Settled I b s (succeeded s.begin.1 s') ∧ (succeeded s.begin.1 s').position = s'.position := by
  cases b with
  | false =>
    obtain ⟨hkept, hposition⟩ := kept_succeeded hI h (settled_false_iff.1 hs)
    exact ⟨settled_false_iff.2 hkept, hposition⟩
  | true =>
    refine ⟨⟨hI.release _ _ hs.holds, hs.capacity_eq, ?_, ?_⟩, rfl⟩
    · show s'.trials - 1 = s.trials
      rw [hs.trials_eq]
      rfl
    · show s'.tokenizer.window.marks.filter _ = []
      rw [hs.marks_eq]
      rfl

omit [Source σ] in
/-- A trial that fails after a commit finds its mark given up: it stays where it failed, and there is
no recovery from the failure any more. -/
theorem settled_failed (h : Settled I true s.begin.2 s') (e : ParseError) :
    failed s.begin.1 e s' = (e.afterCommit s'.position, ⟨s'.tokenizer, s'.trials - 1⟩) ∧
      Settled I true s ⟨s'.tokenizer, s'.trials - 1⟩ := by
  have hgone : ¬ s'.tokenizer.holds s.begin.1 = true := by
    intro hheld
    obtain ⟨m, hm, -⟩ := Window.holds_iff.1 hheld
    rw [h.marks_eq] at hm
    exact List.not_mem_nil hm
  refine ⟨?_, h.holds, h.capacity_eq, ?_, h.marks_eq⟩
  · unfold failed
    simp only [if_neg hgone]
    rfl
  · show s'.trials - 1 = s.trials
    rw [h.trials_eq]
    rfl

end Stream

/-! ### Attempts -/

namespace Action

variable {ν α β : Type} {I : Tokenizer σ → Prop} {P : Pattern → Prop} [Source σ]

/-- How an attempt from the place `n` ends, when what it tries ends with the result `r` at the place
`n₁`; `committed` tells whether it has committed. -/
inductive Ending (committed : Bool) (n n₁ : Nat) :
    Except ParseError α → Except ParseError α → Nat → Prop
  /-- A success stays where it is. -/
  | ok (a : α) : Ending committed n n₁ (.ok a) (.ok a) n₁
  /-- A failure goes back. -/
  | back (e : ParseError) (h : committed = false) : Ending committed n n₁ (.error e) (.error e) n
  /-- A failure after a commit stays where it is. -/
  | stay (e : ParseError) (h : committed = true) :
    Ending committed n n₁ (.error e) (.error (e.afterCommit n₁)) n₁

section Ending

variable {b : Bool} {n n₁ n' : Nat} {r r' : Except ParseError α}

theorem Ending.of_ok {a : α} (h : Ending b n n₁ (.ok a) r' n') : r' = .ok a ∧ n' = n₁ := by
  cases h
  exact ⟨rfl, rfl⟩

theorem Ending.of_error {e : ParseError} (h : Ending b n n₁ (.error e) r' n') :
    (b = false ∧ r' = .error e ∧ n' = n) ∨
      (b = true ∧ r' = .error (e.afterCommit n₁) ∧ n' = n₁) := by
  cases h with
  | back e hno => exact .inl ⟨hno, rfl, rfl⟩
  | stay e hyes => exact .inr ⟨hyes, rfl, rfl⟩

/-- A failure without a commit is reported as it is. -/
theorem Ending.of_not_committed {e : ParseError} (h : Ending b n n₁ (.error e) r' n')
    (hb : b = false) : r' = .error e := by
  rcases h.of_error with ⟨-, hr, -⟩ | ⟨hyes, -⟩
  · exact hr
  · rw [hb] at hyes
    cases hyes

/-- So is a failure from which there is no recovery anyway. -/
theorem Ending.of_fatal {e : ParseError} (h : Ending b n n₁ (.error e) r' n')
    (he : e.isRecoverable = false) : r' = .error e := by
  rcases h.of_error with ⟨-, hr, -⟩ | ⟨-, hr, -⟩
  · exact hr
  · rw [hr, ParseError.afterCommit_of_not_isRecoverable he]

/-- If there is recovery from the failure of an attempt, the attempt went back. -/
theorem Ending.back_of_isRecoverable {e : ParseError} (h : Ending b n n₁ r (.error e) n')
    (he : e.isRecoverable = true) : n' = n := by
  cases h with
  | back e hno => rfl
  | stay e hyes =>
    rw [ParseError.isRecoverable_afterCommit] at he
    cases he

/-- An attempt ends in one way. -/
theorem Ending.unique {n'' : Nat} {r'' : Except ParseError α} (h : Ending b n n₁ r r' n')
    (h' : Ending b n n₁ r r'' n'') : r'' = r' ∧ n'' = n' := by
  cases h with
  | ok a => exact h'.of_ok
  | back e hno =>
    cases h' with
    | back _ _ => exact ⟨rfl, rfl⟩
    | stay _ hyes => cases hno.symm.trans hyes
  | stay e hyes =>
    cases h' with
    | back _ hno => cases hno.symm.trans hyes
    | stay _ _ => exact ⟨rfl, rfl⟩

end Ending

/-- What an attempt does: it settles, and ends as what it tries ends. -/
theorem attempt_ends (hI : Tokenizer.Stable I P) {x : Action (Stream σ) ν α} {b : Bool}
    {s s₁ : Session (Stream σ) ν} (hs : I s.input.tokenizer) {r : Except ParseError α}
    (hx : x (begun s) = some (r, s₁)) (hb : Stream.Settled I b (begun s).input s₁.input) :
    ∃ r' s', attempt x s = some (r', s') ∧ Stream.Settled I b s.input s'.input ∧
      Ending b s.input.position s₁.input.position r r' s'.input.position := by
  cases r with
  | ok a =>
    obtain ⟨hsettled, hposition⟩ := Stream.settled_succeeded hI hs hb
    refine ⟨_, _, attempt_of_ok hx, hsettled, ?_⟩
    rw [hposition]
    exact .ok a
  | error e =>
    have hattempt := attempt_of_error hx
    cases b with
    | false =>
      obtain ⟨herror, hkept, hposition⟩ :=
        Stream.kept_failed hI hs (Stream.settled_false_iff.1 hb) e
      refine ⟨_, _, hattempt, Stream.settled_false_iff.2 hkept, ?_⟩
      rw [hposition, herror]
      exact .back e rfl
    | true =>
      obtain ⟨hfailed, hsettled⟩ := Stream.settled_failed hb e
      rw [hfailed] at hattempt
      exact ⟨_, _, hattempt, hsettled, .stay e rfl⟩

/-- What has happened if an attempt answers. -/
theorem attempt_inv (hI : Tokenizer.Stable I P) {x : Action (Stream σ) ν α} {b : Bool}
    {s s' : Session (Stream σ) ν} {r : Except ParseError α} (hs : I s.input.tokenizer)
    (hx : ∀ r₁ s₁, x (begun s) = some (r₁, s₁) →
      Stream.Settled I b (begun s).input s₁.input)
    (h : attempt x s = some (r, s')) :
    ∃ r₁ s₁, x (begun s) = some (r₁, s₁) ∧ Stream.Settled I b s.input s'.input ∧
      Ending b s.input.position s₁.input.position r₁ r s'.input.position := by
  rcases h₁ : x (begun s) with _ | ⟨r₁, s₁⟩
  · rw [attempt_of_none h₁] at h
    cases h
  · obtain ⟨r₂, s₂, hattempt, hsettled, hends⟩ := attempt_ends hI hs h₁ (hx r₁ s₁ h₁)
    rw [h] at hattempt
    cases hattempt
    exact ⟨r₁, s₁, rfl, hsettled, hends⟩

end Action

/-! ### Programs -/

namespace Program

open StreamParser.Action (begun entered)

variable [Source σ] {ν α β : Type} {I : Tokenizer σ → Prop} {P : Pattern → Prop}

/-- The run from a session commits. -/
def commits : {α : Type} → Program ν α → Session (Stream σ) ν → Bool
  | _, result _, _ => false
  | _, loop, _ => false
  | _, handle x next, s =>
    x.commits s ||
      match x.run s with
      | none => false
      | some (r, s₁) => (next r).commits s₁
  | _, matchPattern _, _ => false
  | _, position, _ => false
  | _, journal, _ => false
  | _, attempt x, s => x.commits (begun s)
  | _, transaction x, s => if Input.isTrying s.input then x.commits s else x.commits (begun s)
  | _, commit, _ => true
  | _, remark tell x, s => x.commits (entered tell s)

/-- A run settles, whatever attempts and commits are nested in it. -/
theorem settled_run (hI : Tokenizer.Lasting I P) (x : Program ν α) (hx : x.Uses P)
    {s s' : Session (Stream σ) ν} {r : Except ParseError α} (hs : I s.input.tokenizer)
    (h : x.run s = some (r, s')) : Stream.Settled I (x.commits s) s.input s'.input := by
  induction x generalizing s s' with
  | result r =>
    cases h
    exact .refl hs
  | loop => cases h
  | handle x next ihx ihnext =>
    simp only [run] at h
    simp only [commits]
    rcases h₁ : x.run s with _ | ⟨r₁, s₁⟩ <;> rw [h₁] at h
    · cases h
    · have hfirst := ihx hx.1 hs h₁
      exact hfirst.trans (ihnext r₁ (hx.2 r₁) hfirst.holds h)
  | matchPattern p =>
    cases h
    exact Stream.settled_false_iff.2 (Stream.kept_matchPattern hI.toStable hs hx)
  | position =>
    cases h
    exact .refl hs
  | journal =>
    cases h
    exact .refl hs
  | attempt x ih =>
    have hbegun : I (begun s).input.tokenizer := hI.mark _ hs
    obtain ⟨r₁, s₁, -, hsettled, -⟩ :=
      Action.attempt_inv hI.toStable hs (fun r₁ s₁ => ih hx hbegun) h
    exact hsettled
  | transaction x ih =>
    simp only [run, Action.transaction] at h
    simp only [commits]
    by_cases htrying : Input.isTrying s.input = true
    · rw [if_pos htrying] at h ⊢
      exact ih hx hs h
    · rw [if_neg htrying] at h ⊢
      have hbegun : I (begun s).input.tokenizer := hI.mark _ hs
      obtain ⟨r₁, s₁, -, hsettled, -⟩ :=
        Action.attempt_inv hI.toStable hs (fun r₁ s₁ => ih hx hbegun) h
      exact hsettled
  | commit =>
    cases h
    exact Stream.settled_commit hI hs
  | remark tell x ih =>
    obtain ⟨s₁, h₁, hinput⟩ := Action.remark_cases h
    rw [hinput]
    exact ih hx (s := entered tell s) hs h₁

/-- **Attempts balance.**  Let a program be tried by an attempt, from any reachable tokenizer and with
any number of trials open.  The attempt answers if the program does.

* After a failure from which there is recovery, the position is where it was.
* If the program has committed and failed, there is no recovery from the error of the attempt, and
  the position is where the program failed.
* Success or failure, as many trials are open as before; and the same marks are held as before if
  the program has not committed, and none if it has. -/
theorem attempt_balances {t : Tokenizer σ} (ht : t.Reachable) (trials : Nat) (journal : List ν)
    (x : Program ν α) :
    let s : Session (Stream σ) ν := ⟨⟨t, trials⟩, journal⟩
    (x.run (begun s) = none → (attempt x).run s = none) ∧
      ∀ r₁ s₁, x.run (begun s) = some (r₁, s₁) → ∃ r s', (attempt x).run s = some (r, s') ∧
        (∀ e, r = .error e → e.isRecoverable = true → s'.input.position = t.position) ∧
        (x.commits (begun s) = true → ∀ e₁, r₁ = .error e₁ → ∃ e, r = .error e ∧
          e.isRecoverable = false ∧ s'.input.position = s₁.input.position) ∧
        s'.input.trials = trials ∧
        (x.commits (begun s) = false →
          ∀ m, m ∈ s'.input.tokenizer.window.marks ↔ m ∈ t.window.marks) ∧
        (x.commits (begun s) = true → s'.input.tokenizer.window.marks = []) := by
  intro s
  refine ⟨Action.attempt_of_none, fun r₁ s₁ h₁ => ?_⟩
  have hlasting := Tokenizer.lasting_ok (σ := σ)
  have hinside := settled_run hlasting x (uses_of_forall (fun _ => trivial) x)
    (s := begun s) ht.ok.mark h₁
  obtain ⟨r, s', hattempt, hsettled, hends⟩ :=
    Action.attempt_ends hlasting.toStable (s := s) ht.ok h₁ hinside
  have hmarks := hsettled.marks_eq
  refine ⟨r, s', hattempt, ?_, ?_, hsettled.trials_eq, fun hno m => ?_, fun hyes => ?_⟩
  · rintro e rfl he
    exact hends.back_of_isRecoverable he
  · rintro hyes e₁ rfl
    rcases hends.of_error with ⟨hno, -⟩ | ⟨-, hr, hposition⟩
    · rw [hyes] at hno
      cases hno
    · exact ⟨_, hr, ParseError.isRecoverable_afterCommit _ _, hposition⟩
  · rw [hmarks, hno]
    rfl
  · rw [hmarks, hyes]
    rfl

/-- Read `a`, commit, and try to read `b`. -/
def pledge : Program Empty String :=
  bind (matchPattern (letter 'a')) fun _ =>
    bind commit fun _ => attempt (matchPattern (letter 'b'))
where
  letter (c : Char) : Pattern := ⟨String.singleton c, .chars (.single c)⟩

/-- A tokenizer of two letters, with a mark at the first. -/
def marked : Tokenizer Script :=
  (Tokenizer.mark ⟨⟨[0x61, 0x63], [], none⟩, .empty 8, .uninitialized, false, .empty 1, none, []⟩).2

/-- The session of an attempt that began at this mark. -/
def underway : Session (Stream Script) Empty := ⟨⟨marked, 1⟩, []⟩

/-- The attempt inside goes back to where it began, which is behind the commit; so the attempt around
it stays there. -/
theorem pledge_stays :
    marked.Reachable ∧ pledge.commits (begun underway) = true ∧
      ∃ e s', (attempt pledge).run underway = some (.error e, s') ∧
        e.isRecoverable = false ∧ s'.input.position = 1 ∧ s'.input.trials = 1 ∧
        s'.input.tokenizer.window.marks = [] := by
  have hreachable : marked.Reachable := .mark (.fresh (.inr ⟨⟨8, 1, none⟩, rfl⟩))
  have hcommits : pledge.commits (begun underway) = true := by decide +kernel
  have hresult : (pledge.run (begun underway)).map (fun x => (x.1, x.2.input.position)) =
      some (.error (.token (.inputMismatch "b")), 1) := by decide +kernel
  obtain ⟨⟨r₁, s₁⟩, hrun, hends⟩ := Option.map_eq_some_iff.1 hresult
  obtain ⟨hr₁, hposition⟩ := Prod.mk.inj hends
  obtain rfl : r₁ = .error _ := hr₁
  obtain ⟨r, s', hattempt, -, hfatal, htrials, -, hmarks⟩ :=
    (attempt_balances hreachable 1 [] pledge).2 _ s₁ hrun
  obtain ⟨e, rfl, he, hstays⟩ := hfatal hcommits _ rfl
  exact ⟨hreachable, hcommits, e, s', hattempt, he, hstays.trans hposition, htrials,
    hmarks hcommits⟩

end Program

end StreamParser
