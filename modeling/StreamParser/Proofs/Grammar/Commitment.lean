import StreamParser.Proofs.Grammar.Agreement
import StreamParser.Proofs.Grammar.Balance

/-!
# Commits over cursors and over streams

A cursor needs no place to go back to, so a commit changes nothing for it; it only wraps the failure
of what is committed.  Over a stream a commit gives up the marks of the attempts around it as well.
If one of these attempts then fails, it cannot go back, even when the committed part has long
succeeded, and its error cannot be recovered from.

* `Program.strands` tells whether that happens in a run over a stream: an attempt has committed, and
  fails with an error from which there would be recovery.
* `Program.AgreesFrom` relates a program over a cursor with one over a stream at the same place.
  Unless the second strands, the two end alike; if it strands, it fails for good.  Parts of programs
  are put together with `Program.AgreesFrom.handle` and `Program.Agrees.attempt`.
* `Grammar.run_commit_agrees` says this of grammars with commits, and `Grammar.escape_strands` is a
  grammar that succeeds over a cursor and strands over a stream.
-/

namespace StreamParser

variable {σ : Type} [Source σ] {ν α β : Type}

/-! ### Errors -/

namespace ParseError

/-- A way to report errors in other words, by which errors that are alike stay alike. -/
structure Rewords (f : ParseError → ParseError) : Prop where
  deepest_eq : ∀ e, (f e).deepest = e.deepest
  alike : ∀ e e', e.isRecoverable = e'.isRecoverable →
    (f e).isRecoverable = (f e').isRecoverable
  fatal : ∀ e, e.isRecoverable = false → (f e).isRecoverable = false

theorem rewords_id : Rewords id where
  deepest_eq _ := rfl
  alike _ _ h := h
  fatal _ h := h

theorem rewords_caused (m : String) : Rewords (caused m) where
  deepest_eq _ := rfl
  alike _ _ h := h
  fatal _ h := h

theorem rewords_afterCommit (n : Nat) : Rewords (afterCommit n) where
  deepest_eq e := deepest_afterCommit n e
  alike e e' _ := by rw [isRecoverable_afterCommit, isRecoverable_afterCommit]
  fatal e _ := isRecoverable_afterCommit n e

theorem Rewords.isOverflow_iff {f : ParseError → ParseError} (hf : Rewords f) (e : ParseError) :
    (f e).IsOverflow ↔ e.IsOverflow := by
  unfold IsOverflow
  rw [hf.deepest_eq]

theorem Alike.rewords {e e' : ParseError} (h : e.Alike e') {f : ParseError → ParseError}
    (hf : Rewords f) : (f e).Alike (f e') :=
  ⟨hf.alike e e' h.1, by rw [hf.isOverflow_iff, hf.isOverflow_iff, h.2]⟩

end ParseError

/-- What a tokenizer keeps up, commits keep too. -/
theorem Tokenizer.Upheld.lasting {I : Tokenizer σ → Prop} (hI : Upheld I) (P : Pattern → Prop) :
    Lasting I P where
  toStable := hI.stable P
  commit _ h := hI.commit h

/-- To answer requests for a stream is kept by commits too. -/
theorem Tokenizer.lasting_serves (l : List UInt8) :
    Lasting (fun t : Tokenizer σ => t.Serves l) Pattern.Streamable :=
  (upheld_serves l).lasting _

namespace Program

open StreamParser.Action (begun entered Corresponds)
open Session

/-! ### Stranding -/

/-- The run from a session commits, and then fails with an error from which there is recovery. -/
def endsAstray (x : Program ν α) (s : Session (Stream σ) ν) : Bool :=
  x.commits s &&
    match x.run s with
    | some (.error e, _) => e.isRecoverable
    | _ => false

/-- In the run from a session there is an attempt that has committed, and fails with an error from
which there is recovery. -/
def strands : {α : Type} → Program ν α → Session (Stream σ) ν → Bool
  | _, result _, _ => false
  | _, loop, _ => false
  | _, handle x next, s =>
    x.strands s ||
      match x.run s with
      | none => false
      | some (r, s₁) => (next r).strands s₁
  | _, matchPattern _, _ => false
  | _, position, _ => false
  | _, journal, _ => false
  | _, attempt x, s => x.strands (begun s) || x.endsAstray (begun s)
  | _, transaction x, s =>
    if Input.isTrying s.input then x.strands s
    else x.strands (begun s) || x.endsAstray (begun s)
  | _, commit, _ => false
  | _, remark tell x, s => x.strands (entered tell s)

/-! ### Agreement -/

variable {l : List UInt8} {n : Nat}

/-- A failure from which there is no recovery. -/
def Fatal {τ : Type} (r : Except ParseError α × τ) : Prop :=
  ∃ e t, r = (.error e, t) ∧ e.isRecoverable = false

/-- From two sessions a program `y` over a stream answers if `x` over a cursor does.  If it does not
strand, the results correspond, and if it does, it fails for good. -/
def AgreesFrom (l : List UInt8) (n : Nat) (x y : Program ν α) (c : Session Cursor ν)
    (s : Session (Stream σ) ν) : Prop :=
  ∀ r, x.run c = some r → ∃ r', y.run s = some r' ∧
    (y.strands s = false → Corresponds l n (Somewhere l) r r') ∧ (y.strands s = true → Fatal r')

/-- The same program agrees with itself from any two sessions at the same place. -/
def Agrees (σ : Type) [Source σ] (l : List UInt8) (n : Nat) (x : Program ν α) : Prop :=
  ∀ (c : Session Cursor ν) (s : Session (Stream σ) ν), Sim l n c s → AgreesFrom l n x x c s

variable {c : Session Cursor ν} {s : Session (Stream σ) ν}

theorem agreesFrom_error {e e' : ParseError} (he : e.Alike e') (h : Somewhere l c s) :
    AgreesFrom l n (result (.error e) : Program ν α) (result (.error e')) c s := by
  intro r hr
  cases hr
  exact ⟨_, rfl, fun _ => .error he h, fun hno => by cases hno⟩

theorem agrees_result (r : Except ParseError α) : Agrees σ l n (result r : Program ν α) := by
  intro c s h
  cases r with
  | error e => exact agreesFrom_error (.refl e) h.bytes_eq
  | ok a =>
    intro r hr
    cases hr
    exact ⟨_, rfl, fun _ => .ok h, fun hno => by cases hno⟩

theorem agrees_loop : Agrees σ l n (loop : Program ν α) := by
  intro c s h r hr
  cases hr

theorem agrees_position : Agrees σ l n (position : Program ν Nat) := by
  intro c s h r hr
  have hplace : Input.position s.input = Input.position c.input := h.position_eq
  cases hr
  refine ⟨_, rfl, fun _ => ?_, fun hno => by cases hno⟩
  rw [hplace]
  exact .ok h

theorem agrees_commit : Agrees σ l n (commit : Program ν Unit) := by
  intro c s h r hr
  cases hr
  refine ⟨_, rfl, fun _ => .ok ⟨h.bytes_eq, ?_, ?_, ?_⟩, fun hno => by cases hno⟩
  · show s.input.tokenizer.commit.window.position = c.input.position
    rw [Tokenizer.window_commit]
    exact h.position_eq
  · show s.input.tokenizer.commit.window.capacity = n
    rw [Tokenizer.window_commit]
    exact h.capacity_eq
  · exact (Tokenizer.lasting_serves l).commit _ h.serves

theorem agrees_matchPattern {p : Pattern} (hp : p.Streamable) :
    Agrees σ l n (matchPattern p : Program ν String) := by
  intro c s h r hr
  obtain ⟨r', hr', hcorr⟩ := Action.simulates_matchPattern (ν := ν) hp c s h r hr
  exact ⟨r', hr', fun _ => hcorr, fun hno => by cases hno⟩

/-- What goes on after a failure passes it on if there is no recovery from it. -/
def PassesOn (next : Except ParseError α → Program ν β) : Prop :=
  ∃ f, ParseError.Rewords f ∧
    ∀ e, e.isRecoverable = false → next (.error e) = result (.error (f e))

/-- Two programs in a row agree if the first two do, and the second ones do from wherever these have
corresponded. -/
theorem AgreesFrom.handle {x y : Program ν α} {next next' : Except ParseError α → Program ν β}
    (hx : AgreesFrom l n x y c s) (hpass : PassesOn next')
    (hok : ∀ a c₁ (s₁ : Session (Stream σ) ν), Sim l n c₁ s₁ →
      AgreesFrom l n (next (.ok a)) (next' (.ok a)) c₁ s₁)
    (herror : ∀ e e' c₁ s₁, x.run c = some (.error e, c₁) → y.run s = some (.error e', s₁) →
      e.Alike e' → Somewhere l c₁ s₁ →
      AgreesFrom l n (next (.error e)) (next' (.error e')) c₁ s₁) :
    AgreesFrom l n (handle x next) (handle y next') c s := by
  obtain ⟨f, hf, hnext⟩ := hpass
  intro r hr
  simp only [run] at hr ⊢
  rcases h₁ : x.run c with _ | ⟨r₁, c₁⟩ <;> rw [h₁] at hr
  · cases hr
  · obtain ⟨⟨r₁', s₁⟩, h₁', hcorr, hfatal⟩ := hx _ h₁
    simp only [strands, h₁']
    cases hstrands : y.strands s with
    | true =>
      -- the failure is passed on
      obtain ⟨e, s', heq, he⟩ := hfatal hstrands
      cases heq
      rw [hnext e he]
      refine ⟨_, rfl, fun hno => ?_, fun _ => ⟨f e, s₁, rfl, hf.fatal e he⟩⟩
      cases hno
    | false =>
      rw [Bool.false_or]
      cases hcorr hstrands with
      | overflow he hn =>
        rw [hnext _ he.not_isRecoverable]
        refine ⟨_, rfl, fun _ => .overflow ((hf.isOverflow_iff _).2 he) hn, fun hno => ?_⟩
        cases hno
      | ok h => exact hok _ c₁ s₁ h r hr
      | error he h => exact herror _ _ c₁ s₁ h₁ h₁' he h r hr

theorem Agrees.bind {x : Program ν α} {f : α → Program ν β} (hx : Agrees σ l n x)
    (hf : ∀ a, Agrees σ l n (f a)) : Agrees σ l n (bind x f) := by
  intro c s h
  refine (hx c s h).handle ⟨id, ParseError.rewords_id, fun e _ => rfl⟩ ?_ ?_
  · exact fun a c₁ s₁ h₁ => hf a c₁ s₁ h₁
  · exact fun e e' c₁ s₁ _ _ he h₁ => agreesFrom_error he h₁

theorem Agrees.mapError {x : Program ν α} (hx : Agrees σ l n x) {f : ParseError → ParseError}
    (hf : ParseError.Rewords f) : Agrees σ l n (mapError f x) := by
  intro c s h
  refine (hx c s h).handle ⟨f, hf, fun e _ => rfl⟩ ?_ ?_
  · exact fun a c₁ s₁ h₁ => agrees_result _ c₁ s₁ h₁
  · exact fun e e' c₁ s₁ _ _ he h₁ => agreesFrom_error (he.rewords hf) h₁

theorem Agrees.letGo {x : Program ν α} (hx : Agrees σ l n x) : Agrees σ l n (letGo x) :=
  agrees_commit.bind fun _ => hx

theorem Agrees.committed {x : Program ν α} (hx : Agrees σ l n x) : Agrees σ l n (committed x) :=
  agrees_position.bind fun k => hx.letGo.mapError (ParseError.rewords_afterCommit k)

theorem Agrees.times {x : Program ν α} (hx : Agrees σ l n x) (k : Nat) :
    Agrees σ l n (times x k) := by
  induction k with
  | zero => exact agrees_result _
  | succ k ih => exact hx.bind fun a => ih.bind fun rest => agrees_result _

/-- What was remarked does not matter. -/
theorem corresponds_of_input_eq {r r' : Except ParseError α} {c c' : Session Cursor ν}
    {s s' : Session (Stream σ) ν} (h : Corresponds l n (Somewhere l) (r, c) (r', s))
    (hc : c'.input = c.input) (hs : s'.input = s.input) :
    Corresponds l n (Somewhere l) (r, c') (r', s') := by
  cases h with
  | overflow he hn => exact .overflow he hn
  | ok h =>
    refine .ok ⟨?_, ?_, ?_, ?_⟩
    · rw [hc]
      exact h.bytes_eq
    · rw [hs, hc]
      exact h.position_eq
    · rw [hs]
      exact h.capacity_eq
    · rw [hs]
      exact h.serves
  | error he h =>
    refine .error he ?_
    unfold Somewhere
    rw [hc]
    exact h

theorem Agrees.remark {x : Program ν α} (hx : Agrees σ l n x) (tell : Moment → Nat → List ν) :
    Agrees σ l n (remark tell x) := by
  rintro c s h ⟨r, c'⟩ hr
  obtain ⟨c₁, hc₁, hc⟩ := Action.remark_cases hr
  have hentered : Sim l n
      { c with journal := (tell .entry (Input.position c.input)).reverse ++ c.journal }
      (entered tell s) := ⟨h.bytes_eq, h.position_eq, h.capacity_eq, h.serves⟩
  obtain ⟨⟨r', s₁⟩, hs₁, hcorr, hfatal⟩ := hx _ _ hentered _ hc₁
  obtain ⟨s', hs', hs⟩ := Action.remark_of_some hs₁
  refine ⟨_, hs', fun hno => ?_, fun hyes => ?_⟩
  · exact corresponds_of_input_eq (hcorr hno) hc hs
  · obtain ⟨e, t, heq, he⟩ := hfatal hyes
    cases heq
    exact ⟨e, s', rfl, he⟩

/-! ### Attempts -/

/-- A program that is tried over a stream ends as it does over a cursor without being tried, but for
the place after a failure; or else it strands. -/
theorem Agrees.tried {x : Program ν α} (hx : Agrees σ l n x) (hu : x.Uses Pattern.Streamable)
    (h : Sim l n c s) : AgreesFrom l n x (attempt x) c s := by
  have hlasting := Tokenizer.lasting_serves (σ := σ) l
  have hbegun : Sim l n c (begun s) :=
    ⟨h.bytes_eq, h.position_eq, h.capacity_eq, hlasting.mark _ h.serves⟩
  intro r hr
  obtain ⟨⟨r₁, s₁⟩, h₁, hcorr, hfatal⟩ := hx c (begun s) hbegun r hr
  have hinside := settled_run hlasting x hu hbegun.serves h₁
  obtain ⟨r', s', hattempt, hsettled, hends⟩ :=
    Action.attempt_ends hlasting.toStable h.serves h₁ hinside
  refine ⟨(r', s'), hattempt, fun hno => ?_, fun hyes => ?_⟩
  · simp only [strands, endsAstray, h₁, Bool.or_eq_false_iff, Bool.and_eq_false_iff] at hno
    obtain ⟨hstrands, hastray⟩ := hno
    cases hcorr hstrands with
    | overflow he hn =>
      obtain rfl := hends.of_fatal he.not_isRecoverable
      exact .overflow he hn
    | ok h₁ =>
      obtain ⟨rfl, hposition⟩ := hends.of_ok
      exact .ok ⟨h₁.bytes_eq, hposition.trans h₁.position_eq,
        hsettled.capacity_eq.trans h.capacity_eq, hsettled.holds⟩
    | @error e e' c₁ s₁ he hbytes =>
      have hr' : r' = .error e' := by
        rcases hastray with hno | hfatal
        · exact hends.of_not_committed hno
        · exact hends.of_fatal hfatal
      rw [hr']
      exact .error he hbytes
  · simp only [strands, endsAstray, h₁, Bool.or_eq_true, Bool.and_eq_true] at hyes
    rcases hyes with hstrands | ⟨hcommits, hastray⟩
    · -- the failure inside is passed on
      obtain ⟨e, t, heq, he⟩ := hfatal hstrands
      cases heq
      exact ⟨e, s', by rw [hends.of_fatal he], he⟩
    · cases r₁ with
      | ok a => cases hastray
      | error e =>
        rcases hends.of_error with ⟨hno, -⟩ | ⟨-, rfl, -⟩
        · rw [hcommits] at hno
          cases hno
        · exact ⟨_, s', rfl, ParseError.isRecoverable_afterCommit _ _⟩

theorem Agrees.attempt {x : Program ν α} (hx : Agrees σ l n x) (hu : x.Uses Pattern.Streamable) :
    Agrees σ l n (attempt x) := by
  intro c s h r hr
  have hr : Action.attempt x.run c = some r := hr
  rw [Action.attempt_cursor] at hr
  rcases h₁ : x.run c with _ | ⟨e | a, c₁⟩ <;> rw [h₁] at hr <;> cases hr
  · obtain ⟨r', hr', hcorr, hfatal⟩ := hx.tried hu h _ h₁
    refine ⟨r', hr', fun hno => ?_, hfatal⟩
    cases hcorr hno with
    | overflow he hn => exact .overflow he hn
    | error he hbytes => exact .error he hbytes
  · exact hx.tried hu h _ h₁

theorem Agrees.transaction {x : Program ν α} (hx : Agrees σ l n x)
    (hu : x.Uses Pattern.Streamable) : Agrees σ l n (transaction x) := by
  intro c s h r hr
  have hr : x.run c = some r := hr
  simp only [run, Action.transaction, strands]
  by_cases htrying : Input.isTrying s.input = true
  · rw [if_pos htrying, if_pos htrying]
    exact hx c s h r hr
  · rw [if_neg htrying, if_neg htrying]
    exact hx.tried hu h r hr

/-- After a failure of an attempt from which there is recovery, both are back where they were. -/
theorem sim_of_attempt_error {x : Program ν α} (hu : x.Uses Pattern.Streamable) (h : Sim l n c s)
    {e e' : ParseError} {c₁ : Session Cursor ν} {s₁ : Session (Stream σ) ν}
    (hc : (attempt x).run c = some (.error e, c₁)) (hs : (attempt x).run s = some (.error e', s₁))
    (he' : e'.isRecoverable = true) (hbytes : Somewhere l c₁ s₁) : Sim l n c₁ s₁ := by
  have hlasting := Tokenizer.lasting_serves (σ := σ) l
  have hbegun : (begun s).input.tokenizer.Serves l := hlasting.mark _ h.serves
  obtain ⟨r₂, s₂, -, hsettled, hends⟩ := Action.attempt_inv hlasting.toStable h.serves
    (fun r₂ s₂ => settled_run hlasting x hu hbegun) hs
  have hposition : c₁.input.position = c.input.position := by
    have hc : Action.attempt x.run c = some (.error e, c₁) := hc
    rw [Action.attempt_cursor] at hc
    rcases h₁ : x.run c with _ | ⟨e₁ | a, c₂⟩ <;> rw [h₁] at hc <;> cases hc
    rfl
  exact ⟨hbytes, (hends.back_of_isRecoverable he').trans (h.position_eq.trans hposition.symm),
    hsettled.capacity_eq.trans h.capacity_eq, hsettled.holds⟩

theorem Agrees.orElse {x y : Program ν α} (hx : Agrees σ l n x) (hu : x.Uses Pattern.Streamable)
    (hy : Agrees σ l n y) : Agrees σ l n (orElse x y) := by
  intro c s h
  refine (hx.attempt hu c s h).handle ⟨id, ParseError.rewords_id, fun e he => ?_⟩ ?_ ?_
  · simp only [he]
    rfl
  · exact fun a c₁ s₁ h₁ => agrees_result _ c₁ s₁ h₁
  · intro e e' c₁ s₁ hc hs he hbytes
    simp only [he.1]
    by_cases hrec : e'.isRecoverable = true
    · rw [if_pos hrec, if_pos hrec]
      exact hy c₁ s₁ (sim_of_attempt_error hu h hc hs hrec hbytes)
    · rw [if_neg hrec, if_neg hrec]
      exact agreesFrom_error he hbytes

theorem Agrees.many {x : Program ν α} (hx : Agrees σ l n x) (hu : x.Uses Pattern.Streamable)
    (most : Option Nat) (k : Nat) : Agrees σ l n (many x most k) := by
  induction k generalizing most with
  | zero => exact agrees_loop
  | succ k ih =>
    unfold Program.many
    by_cases hmost : most = some 0
    · rw [if_pos hmost]
      exact agrees_result _
    · rw [if_neg hmost]
      refine agrees_position.bind fun before c s h => ?_
      refine (hx.attempt hu c s h).handle ⟨id, ParseError.rewords_id, fun e he => ?_⟩ ?_ ?_
      · simp only [manyAfter, he]
        rfl
      · -- an item that reads nothing ends the repetition over both
        intro a c₁ s₁ h₁
        refine agrees_position.bind (fun after => ?_) c₁ s₁ h₁
        by_cases hstill : after = before
        · rw [if_pos hstill]
          exact agrees_result _
        · rw [if_neg hstill]
          exact (ih _).bind fun rest => agrees_result _
      · intro e e' c₁ s₁ hc hs he hbytes
        simp only [manyAfter, he.1]
        by_cases hrec : e'.isRecoverable = true
        · rw [if_pos hrec, if_pos hrec]
          exact agrees_result _ c₁ s₁ (sim_of_attempt_error hu h hc hs hrec hbytes)
        · rw [if_neg hrec, if_neg hrec]
          exact agreesFrom_error he hbytes

/-! ### Grammars -/

/-- A grammar agrees if its rules do. -/
theorem agrees_ofGrammar {ρ υ : Type} {rules : ρ → Program ν υ}
    (hr : ∀ r, Agrees σ l n (rules r)) (hu : ∀ r, (rules r).Uses Pattern.Streamable)
    (bound : Nat) {α : Type} {g : Grammar ρ υ ν α} (hg : g.Uses Pattern.Streamable) :
    Agrees σ l n (ofGrammar rules bound g) := by
  have huses : ∀ {α : Type} {g : Grammar ρ υ ν α}, g.Uses Pattern.Streamable →
      (ofGrammar rules bound g).Uses Pattern.Streamable := fun hg => uses_ofGrammar hu bound hg
  induction g with
  | pattern p =>
    cases p with
    | ok p => exact agrees_matchPattern hg
    | error e => exact agrees_result _
  | succeed a => exact agrees_result _
  | fail e => exact agrees_result _
  | bind g next ihg ihnext => exact (ihg hg.1).bind fun a => ihnext a (hg.2 a)
  | transaction g ih => exact (ih hg).transaction (huses hg)
  | attempt g ih => exact (ih hg).attempt (huses hg)
  | orElse g h ihg ihh => exact (ihg hg.1).orElse (huses hg.1) (ihh hg.2)
  | label m g ih => exact (ih hg).mapError (ParseError.rewords_caused m)
  | commit g ih => exact (ih hg).committed
  | letGo g ih => exact (ih hg).letGo
  | rule r => exact hr r
  | times k g ih => exact (ih hg).times k
  | many most g ih => exact (ih hg).many (huses hg) most bound
  | remark tell g ih => exact (ih hg).remark tell

theorem agrees_ofRule {ρ υ : Type} {rules : ρ → Grammar ρ υ ν υ}
    (hr : ∀ r, (rules r).Uses Pattern.Streamable) (bound k : Nat) (r : ρ) :
    Agrees σ l n (ofRule rules bound k r) := by
  induction k generalizing r with
  | zero => exact agrees_loop
  | succ k ih => exact agrees_ofGrammar ih (uses_ofRule hr bound k) bound (hr r)

end Program

namespace Grammar

open Session

variable {ρ υ : Type}

theorem Uses.mono {P Q : Pattern → Prop} (hPQ : ∀ p, P p → Q p) {g : Grammar ρ υ ν α}
    (hg : g.Uses P) : g.Uses Q := by
  induction g with
  | pattern p =>
    cases p with
    | ok p => exact hPQ p hg
    | error e => trivial
  | succeed a => trivial
  | fail e => trivial
  | bind g next ihg ihnext => exact ⟨ihg hg.1, fun a => ihnext a (hg.2 a)⟩
  | transaction g ih => exact ih hg
  | attempt g ih => exact ih hg
  | orElse g h ihg ihh => exact ⟨ihg hg.1, ihh hg.2⟩
  | label m g ih => exact ih hg
  | commit g ih => exact ih hg
  | letGo g ih => exact ih hg
  | rule r => trivial
  | times k g ih => exact ih hg
  | many most g ih => exact ih hg
  | remark tell g ih => exact ih hg

/-- If the run over a stream succeeds, the run over a cursor has the same output. -/
theorem eq_ok_of_stream {rules : ρ → Grammar ρ υ ν υ} (hr : ∀ r, (rules r).Uses Pattern.Streamable)
    {g : Grammar ρ υ ν α} (hg : g.Uses Pattern.Streamable) (bound : Nat) {l : List UInt8} {n : Nat}
    {c c' : Session Cursor ν} {s s' : Session (Stream σ) ν} (hsim : Sim l n c s)
    {r : Except ParseError α} {a : α} (hc : run rules bound g c = some (r, c'))
    (hs : run rules bound g s = some (.ok a, s')) : r = .ok a := by
  have hagrees : Program.Agrees σ l n (Program.ofGrammarWith rules bound g) :=
    Program.agrees_ofGrammar (Program.agrees_ofRule hr bound bound)
      (Program.uses_ofRule hr bound bound) bound hg
  rw [← Program.run_ofGrammarWith] at hc hs
  obtain ⟨r', hs', hcorr, hfatal⟩ := hagrees c s hsim _ hc
  obtain rfl := Option.some.inj (hs.symm.trans hs')
  cases hstrands : (Program.ofGrammarWith rules bound g).strands s with
  | false =>
    cases hcorr hstrands
    rfl
  | true =>
    obtain ⟨e, t, heq, -⟩ := hfatal hstrands
    cases heq

/-- The run of a grammar over a stream strands: an attempt of it, or a transaction that is an attempt
because none is open, has committed and fails with an error from which there is recovery. -/
def Strands (rules : ρ → Grammar ρ υ ν υ) (bound : Nat) (g : Grammar ρ υ ν α)
    (s : Session (Stream σ) ν) : Prop :=
  (Program.ofGrammarWith rules bound g).strands s = true

/-- **Commits over cursors and over streams.**  Let a grammar, which may commit, be run over a cursor
on a text, and let the run answer.  Then so does the run over a fresh stream whose source delivers
the text, however it cuts it, if the window is longer than the text.  If no attempt of the run over
the stream strands, the answers agree: the same output at the same place, or two errors from which
there is recovery or not alike.  If one strands, the run over the stream fails, and there is no
recovery. -/
theorem run_commit_agrees {rules : ρ → Grammar ρ υ ν υ} (hr : ∀ r, (rules r).Uses IsStreamed)
    {g : Grammar ρ υ ν α} (hg : g.Uses IsStreamed) (bound : Nat) (text : String)
    {source : σ} (hs : Delivers source (Utf8.bytes text)) {t : Tokenizer σ} (ht : t.Fresh source)
    (hc : (Utf8.bytes text).length < t.window.capacity) {journal : List ν}
    {r : Except ParseError α} {c : Session Cursor ν}
    (hrun : run rules bound g ⟨Cursor.start text, journal⟩ = some (r, c)) :
    ∃ r' s, run rules bound g ⟨Stream.start t, journal⟩ = some (r', s) ∧
      (¬ Strands rules bound g ⟨Stream.start t, journal⟩ →
        (∃ a, r = .ok a ∧ r' = .ok a ∧ s.input.position = c.input.position) ∨
          ∃ e e', r = .error e ∧ r' = .error e' ∧ e.isRecoverable = e'.isRecoverable) ∧
      (Strands rules bound g ⟨Stream.start t, journal⟩ →
        ∃ e, r' = .error e ∧ e.isRecoverable = false) := by
  have hstreamable : ∀ r, (rules r).Uses Pattern.Streamable :=
    fun r => (hr r).mono fun _ => streamable_of_isStreamed
  have hposition : t.position = 0 := by
    unfold Tokenizer.position
    rw [ht.window_eq]
    rfl
  have hsim : Sim (Utf8.bytes text) t.window.capacity
      (⟨Cursor.start text, journal⟩ : Session Cursor ν) ⟨Stream.start t, journal⟩ :=
    ⟨rfl, hposition, rfl, ht.serves hs⟩
  have hagrees : Program.Agrees σ (Utf8.bytes text) t.window.capacity
      (Program.ofGrammarWith rules bound g) :=
    Program.agrees_ofGrammar (Program.agrees_ofRule hstreamable bound bound)
      (Program.uses_ofRule hstreamable bound bound) bound
      (hg.mono fun _ => streamable_of_isStreamed)
  rw [← Program.run_ofGrammarWith] at hrun ⊢
  obtain ⟨⟨r', s⟩, hstream, hcorr, hfatal⟩ := hagrees _ _ hsim _ hrun
  refine ⟨r', s, hstream, fun hno => ?_, fun hyes => ?_⟩
  · cases hcorr (Bool.not_eq_true _ ▸ hno) with
    | overflow he hle => omega
    | ok h => exact .inl ⟨_, rfl, rfl, h.position_eq⟩
    | error he h => exact .inr ⟨_, _, rfl, rfl, he.1⟩
  · obtain ⟨e, s', heq, he⟩ := hfatal hyes
    cases heq
    exact ⟨e, rfl, he⟩

/-- One letter. -/
def single (c : Char) : Grammar Empty Unit Empty String :=
  pattern (.ok ⟨String.singleton c, .chars (.single c)⟩)

theorem uses_single (c : Char) : (single c).Uses IsStreamed := .inl rfl

/-- A tokenizer of two letters, which it gets one by one. -/
def pair : Tokenizer Script :=
  ⟨⟨Utf8.bytes "ac", [.hand 0], some 1⟩, .empty 4, .uninitialized, false, .empty 1, none, []⟩

theorem pair_delivers : Delivers pair.source (Utf8.bytes "ac") := Script.delivers (by simp [pair])

theorem pair_fresh : pair.Fresh pair.source := .inr ⟨⟨4, 1, none⟩, rfl⟩

/-- The letter `a`, or else `b`, and then a commit and `c`. -/
def resolve : Grammar Empty Unit Empty String :=
  ((single 'b').orElse (single 'a')).skipLeft (commit (single 'c'))

/-- A commit that nothing fails after is no more than what it is over a cursor. -/
theorem resolve_over_stream :
    resolve.Uses IsStreamed ∧ ∃ s,
      run Empty.elim 3 resolve ⟨Stream.start pair, []⟩ = some (.ok "c", s) ∧
        s.input.position = 2 := by
  have huses : resolve.Uses IsStreamed :=
    ⟨⟨uses_single 'b', uses_single 'a'⟩, fun _ => uses_single 'c'⟩
  have hcursor : (run Empty.elim 3 resolve ⟨Cursor.start "ac", []⟩).map
      (fun x => (x.1, x.2.input.position)) = some (.ok "c", 2) := by decide +kernel
  have hstrands : ¬ Strands Empty.elim 3 resolve ⟨Stream.start pair, []⟩ := by
    unfold Strands
    decide +kernel
  obtain ⟨⟨r, c⟩, hrun, hresult⟩ := Option.map_eq_some_iff.1 hcursor
  obtain ⟨hr, hposition⟩ := Prod.mk.inj hresult
  obtain rfl : r = .ok "c" := hr
  obtain ⟨r', s, hstream, hagrees, -⟩ := run_commit_agrees (fun r => r.elim) huses 3 "ac"
    pair_delivers pair_fresh (by decide) hrun
  rcases hagrees hstrands with ⟨a, ha, rfl, hplace⟩ | ⟨e, e', he, -⟩
  · cases ha
    exact ⟨huses, s, hstream, hplace.trans hposition⟩
  · cases he

/-- The letter `a` with a commit, before `b`; or else `a` before `c`. -/
def escape : Grammar Empty Unit Empty String :=
  ((commit (single 'a')).skip (single 'b')).orElse ((single 'a').skipLeft (single 'c'))

/-- Over a cursor the second alternative is read, since what was committed has succeeded.  Over a
stream the mark before the first letter is given up, and there is no second alternative. -/
theorem escape_strands :
    escape.Uses IsStreamed ∧ Delivers pair.source (Utf8.bytes "ac") ∧ pair.Fresh pair.source ∧
      (Utf8.bytes "ac").length < pair.window.capacity ∧
      (∃ c, run Empty.elim 3 escape ⟨Cursor.start "ac", []⟩ = some (.ok "c", c) ∧
        c.input.position = 2) ∧
      ∃ e s, run Empty.elim 3 escape ⟨Stream.start pair, []⟩ = some (.error e, s) ∧
        e.isRecoverable = false := by
  have huses : escape.Uses IsStreamed :=
    ⟨⟨uses_single 'a', fun _ => ⟨uses_single 'b', fun _ => trivial⟩⟩, uses_single 'a',
      fun _ => uses_single 'c'⟩
  have hcursor : (run Empty.elim 3 escape ⟨Cursor.start "ac", []⟩).map
      (fun x => (x.1, x.2.input.position)) = some (.ok "c", 2) := by decide +kernel
  have hstream : (run Empty.elim 3 escape ⟨Stream.start pair, []⟩).map Prod.fst =
      some (.error (.committed 1 (.token (.inputMismatch "b")))) := by decide +kernel
  obtain ⟨⟨r, c⟩, hrun, hresult⟩ := Option.map_eq_some_iff.1 hcursor
  obtain ⟨hr, hposition⟩ := Prod.mk.inj hresult
  obtain rfl : r = .ok "c" := hr
  obtain ⟨⟨r', s⟩, hrun', rfl⟩ := Option.map_eq_some_iff.1 hstream
  exact ⟨huses, pair_delivers, pair_fresh, by decide, ⟨c, hrun, hposition⟩, _, s, hrun', rfl⟩

end Grammar

end StreamParser
