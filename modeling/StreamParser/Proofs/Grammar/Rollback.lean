import StreamParser.Proofs.Grammar.Trials
import StreamParser.Proofs.Tokenizer.Reachable

/-!
# Where a failure leaves a stream

A failure should leave the stream where it was.  The combinators see to that with attempts and
transactions; but a repetition puts only each of its items into an attempt.  If an item fails for
good, which means with an error from which there is no recovery, the items before it stay consumed.

* `Grammar.IsCombined` says that a grammar is made with the combinators of the library, none of
  which commits.
* `Grammar.breakingPoint` is the place of the item at which a repetition fails for good, if that is
  why a grammar fails, and if no attempt or transaction around the repetition goes back.
* `Grammar.position_of_failure`: a failed run is at its breaking point if there is one, and where it
  began if there is none.  After an error from which there is recovery it is where it began.
-/

namespace StreamParser

variable {σ ν α β : Type}

/-! ### Parts of a run -/

namespace Action

/-- The stream is where it should be for a part of a run: the window is well formed, and no trial is
open. -/
def AtTop (s : Session (Stream σ) ν) : Prop :=
  s.input.tokenizer.window.Ok ∧ s.input.trials = 0

/-- If the part fails outside of trials, it is at the place `p` tells or where it began; if there is
recovery from the error, it is where it began. -/
def FailsAt (p : Session (Stream σ) ν → Option Nat) (x : Action (Stream σ) ν α) : Prop :=
  ∀ s e s', AtTop s → x s = some (.error e, s') →
    s'.input.position = (p s).getD s.input.position ∧ (e.isRecoverable = true → p s = none)

/-- If the part fails, it is at the place that `p` tells, and there is no recovery. -/
def BreaksAt (p : Session (Stream σ) ν → Option Nat) (x : Action (Stream σ) ν α) : Prop :=
  ∀ s e s', AtTop s → x s = some (.error e, s') →
    p s = some s'.input.position ∧ e.isRecoverable = false

variable {x : Action (Stream σ) ν α}

theorem BreaksAt.failsAt {p : Session (Stream σ) ν → Option Nat} (h : BreaksAt p x) :
    FailsAt p x := by
  intro s e s' hs hx
  obtain ⟨hp, he⟩ := h s e s' hs hx
  rw [hp, he]
  exact ⟨rfl, fun hno => by cases hno⟩

/-- The marks and the trials stay as they are, in any well-formed state. -/
abbrev KeepsOk (x : Action (Stream σ) ν α) : Prop := Keeps (fun t => t.window.Ok) x

theorem KeepsOk.atTop (hx : KeepsOk x) {s s' : Session (Stream σ) ν} (hs : AtTop s)
    {r : Except ParseError α} (h : x s = some (r, s')) : AtTop s' := by
  have hkept := hx s r s' hs.1 h
  exact ⟨hkept.holds, hkept.trials_eq.trans hs.2⟩

theorem failsAt_fail (e : ParseError) :
    FailsAt (fun _ => none) (fail e : Action (Stream σ) ν α) := by
  intro s e' s' hs h
  cases h
  exact ⟨rfl, fun _ => rfl⟩

theorem breaksAt_pure (p : Session (Stream σ) ν → Option Nat) (a : α) :
    BreaksAt p (pure a : Action (Stream σ) ν α) := by
  intro s e s' hs h
  cases h

/-- Other words for an error change neither the place nor whether there is recovery. -/
theorem FailsAt.mapError {p : Session (Stream σ) ν → Option Nat} (hx : FailsAt p x)
    {f : ParseError → ParseError} (hf : ∀ e, (f e).isRecoverable = e.isRecoverable) :
    FailsAt p (mapError f x) := by
  intro s e s' hs h
  unfold Action.mapError at h
  rcases h₁ : x s with _ | ⟨e₁ | a, s₁⟩ <;> rw [h₁] at h <;> cases h
  rw [hf e₁]
  exact hx s e₁ s' hs h₁

/-- Where two parts in a row fail, of which the second fails by breaking. -/
def breakingPointThen (x : Action (Stream σ) ν α) (p : Session (Stream σ) ν → Option Nat)
    (q : α → Session (Stream σ) ν → Option Nat) (s : Session (Stream σ) ν) : Option Nat :=
  match x s with
  | some (.ok a, t) => q a t
  | some (.error _, _) => p s
  | none => none

theorem FailsAt.bind {p : Session (Stream σ) ν → Option Nat} (hx : FailsAt p x)
    (hk : KeepsOk x) {f : α → Action (Stream σ) ν β} {q : α → Session (Stream σ) ν → Option Nat}
    (hf : ∀ a, BreaksAt (q a) (f a)) : FailsAt (breakingPointThen x p q) (bind x f) := by
  intro s e s' hs h
  unfold breakingPointThen
  unfold Action.bind at h
  rcases h₁ : x s with _ | ⟨e₁ | a, s₁⟩ <;> rw [h₁] at h
  · cases h
  · cases h
    exact hx s e s' hs h₁
  · obtain ⟨hq, he⟩ := hf a s₁ e s' (hk.atTop hs h₁) h
    simp only [hq, he]
    exact ⟨rfl, fun hno => by cases hno⟩

theorem BreaksAt.bind {p : Session (Stream σ) ν → Option Nat} (hx : BreaksAt p x)
    (hk : KeepsOk x) {f : α → Action (Stream σ) ν β} {q : α → Session (Stream σ) ν → Option Nat}
    (hf : ∀ a, BreaksAt (q a) (f a)) : BreaksAt (breakingPointThen x p q) (bind x f) := by
  intro s e s' hs h
  unfold breakingPointThen
  unfold Action.bind at h
  rcases h₁ : x s with _ | ⟨e₁ | a, s₁⟩ <;> rw [h₁] at h
  · cases h
  · cases h
    exact hx s e s' hs h₁
  · exact hf a s₁ e s' (hk.atTop hs h₁) h

variable [Source σ]

/-- An attempt that fails is where it began. -/
theorem position_of_attempt_error (hx : KeepsOk x) {s s' : Session (Stream σ) ν} (hs : AtTop s)
    {e : ParseError} (h : attempt x s = some (.error e, s')) :
    s'.input.position = s.input.position := by
  rcases attempt_cases Tokenizer.stable_ok hx hs.1 with ⟨-, h'⟩ | ⟨a, s₁, s₂, -, h', -⟩ |
    ⟨e', s₁, s₂, -, h', -, hposition⟩ <;> rw [h] at h' <;> cases h'
  exact hposition

theorem failsAt_attempt (hx : KeepsOk x) : FailsAt (fun _ => none) (attempt x) :=
  fun _ _ _ hs h => ⟨position_of_attempt_error hx hs h, fun _ => rfl⟩

/-- Outside of trials a transaction is an attempt. -/
theorem failsAt_transaction (hx : KeepsOk x) : FailsAt (fun _ => none) (transaction x) := by
  intro s e s' hs h
  have htop : Input.isTrying s.input = false := by
    show decide (0 < s.input.trials) = false
    rw [hs.2]
    rfl
  unfold Action.transaction at h
  rw [htop] at h
  exact failsAt_attempt hx s e s' hs h

/-- A pattern that is not matched leaves the stream where it is. -/
theorem failsAt_matchPattern (p : Pattern) :
    FailsAt (fun _ => none) (matchPattern p : Action (Stream σ) ν String) := by
  intro s e s' hs h
  obtain ⟨hresult, hsession⟩ := Prod.mk.inj (Option.some.inj h)
  have hresult : (s.input.matchPattern p).1 = .error e := hresult
  have hinput : (s.input.matchPattern p).2 = s'.input := congrArg Session.input hsession
  unfold Stream.matchPattern at hresult hinput
  rcases hr : s.input.tokenizer.rawNext p with ⟨e' | token, t⟩ <;> rw [hr] at hresult hinput
  · rw [← hinput]
    exact ⟨(Tokenizer.samePlace_of_rawNext_error hs.1 hr).2.position_eq, fun _ => rfl⟩
  · cases hresult

/-- Where the second of two alternatives fails, if it is read. -/
def breakingPointElse (x : Action (Stream σ) ν α) (q : Session (Stream σ) ν → Option Nat)
    (s : Session (Stream σ) ν) : Option Nat :=
  match attempt x s with
  | some (.error e, t) => if e.isRecoverable then q t else none
  | _ => none

/-- The second alternative begins where the first did. -/
theorem FailsAt.orElse {q : Session (Stream σ) ν → Option Nat} {y : Action (Stream σ) ν α}
    (hx : KeepsOk x) (hy : FailsAt q y) : FailsAt (breakingPointElse x q) (orElse x y) := by
  intro s e s' hs h
  unfold breakingPointElse
  unfold Action.orElse at h
  rcases h₁ : attempt x s with _ | ⟨e₁ | a, s₁⟩ <;> rw [h₁] at h
  · cases h
  · have hposition := position_of_attempt_error hx hs h₁
    simp only at h ⊢
    by_cases he : e₁.isRecoverable = true
    · rw [if_pos he] at h ⊢
      -- the second alternative is read where the first one began
      have hs₁ : AtTop s₁ := KeepsOk.atTop (hx.attempt Tokenizer.stable_ok) hs h₁
      rw [← hposition]
      exact hy s₁ e s' hs₁ h
    · rw [if_neg he] at h ⊢
      cases h
      exact ⟨hposition, fun _ => rfl⟩
  · cases h

theorem FailsAt.remark {p : Session (Stream σ) ν → Option Nat} (hx : FailsAt p x)
    (tell : Moment → Nat → List ν) : FailsAt (fun s => p (entered tell s)) (remark tell x) := by
  intro s e s' hs h
  unfold Action.remark at h
  simp only at h
  split at h <;> cases h
  rename_i s₁ h₁
  have hfails := hx (entered tell s) e s₁ hs h₁
  exact hfails

/-- The place of the item at which a repetition fails for good, if it does. -/
def breakingPoint (x : Action (Stream σ) ν α) :
    (most : Option Nat) → Nat → Session (Stream σ) ν → Option Nat
  | _, 0, _ => none
  | most, n + 1, s =>
    if most = some 0 then none
    else
      match attempt x s with
      | none => none
      | some (.error e, _) => if e.isRecoverable then none else some s.input.position
      | some (.ok _, t) =>
        if t.input.position = s.input.position then none
        else breakingPoint x (most.map (· - 1)) n t

/-- A repetition fails only if an item fails for good, and then it is where this item begins. -/
theorem breaksAt_many (hx : KeepsOk x) (most : Option Nat) (n : Nat) :
    BreaksAt (breakingPoint x most n) (many x most n) := by
  induction n generalizing most with
  | zero =>
    intro s e s' hs h
    cases h
  | succ n ih =>
    intro s e s' hs h
    unfold Action.many at h
    unfold breakingPoint
    by_cases hmost : most = some 0
    · rw [if_pos hmost] at h
      cases h
    · rw [if_neg hmost] at h ⊢
      have hattempt := hx.attempt Tokenizer.stable_ok
      rcases h₁ : attempt x s with _ | ⟨e₁ | a, s₁⟩ <;> rw [h₁] at h
      · cases h
      · simp only at h ⊢
        by_cases he : e₁.isRecoverable = true
        · rw [if_pos he] at h
          cases h
        · rw [if_neg he] at h ⊢
          cases h
          rw [Bool.not_eq_true] at he
          -- the attempt around the item goes back to where the item began, and no further
          exact ⟨congrArg some (position_of_attempt_error hx hs h₁).symm, he⟩
      · simp only at h ⊢
        have hs₁ : AtTop s₁ := KeepsOk.atTop hattempt hs h₁
        have hposition : ∀ s : Session (Stream σ) ν, Input.position s.input = s.input.position :=
          fun _ => rfl
        simp only [hposition] at h
        by_cases hstill : s₁.input.position = s.input.position
        · rw [if_pos hstill] at h
          cases h
        · rw [if_neg hstill] at h ⊢
          unfold Action.bind at h
          rcases h₂ : many x (most.map (· - 1)) n s₁ with _ | ⟨e₂ | l, s₂⟩ <;> rw [h₂] at h <;>
            cases h
          exact ih _ s₁ e s' hs₁ h₂

end Action

/-! ### Grammars -/

namespace Grammar

variable {ρ υ : Type}

/-- Grammars that are made with the combinators of the library, without commits. -/
inductive IsCombined : {α : Type} → Grammar ρ υ ν α → Prop
  | pattern (p : Except PatternError Pattern) : IsCombined (.pattern p)
  | succeed {α : Type} (a : α) : IsCombined (.succeed a)
  | fail {α : Type} (e : ParseError) : IsCombined (.fail e : Grammar ρ υ ν α)
  | rule (r : ρ) : IsCombined (.rule r)
  | map {α β : Type} (f : α → β) {g : Grammar ρ υ ν α} (hg : IsCombined g) : IsCombined (g.map f)
  | andThen {α β : Type} {g : Grammar ρ υ ν α} {next : α → Grammar ρ υ ν β} (hg : IsCombined g)
    (hnext : ∀ a, IsCombined (next a)) : IsCombined (g.andThen next)
  | orElse {α : Type} {g h : Grammar ρ υ ν α} (hg : IsCombined g) (hh : IsCombined h) :
    IsCombined (g.orElse h)
  | label {α : Type} (m : String) {g : Grammar ρ υ ν α} (hg : IsCombined g) :
    IsCombined (.label m g)
  | zeroOrMore {α : Type} {g : Grammar ρ υ ν α} (hg : IsCombined g) : IsCombined g.zeroOrMore
  | exactly {α : Type} (n : Nat) {g : Grammar ρ υ ν α} (hg : IsCombined g) :
    IsCombined (g.exactly n)
  | atLeast {α : Type} (n : Nat) {g : Grammar ρ υ ν α} (hg : IsCombined g) :
    IsCombined (g.atLeast n)
  | between {α : Type} {least most : Nat} {g : Grammar ρ υ ν α} {h : Grammar ρ υ ν (List α)}
    (hg : IsCombined g) (hb : between least most g = .ok h) : IsCombined h
  | separatedByOneOrMore {α β : Type} {g : Grammar ρ υ ν α} {separator : Grammar ρ υ ν β}
    (hg : IsCombined g) (hs : IsCombined separator) : IsCombined (g.separatedByOneOrMore separator)
  | separatedByZeroOrMore {α β : Type} {g : Grammar ρ υ ν α} {separator : Grammar ρ υ ν β}
    (hg : IsCombined g) (hs : IsCombined separator) :
    IsCombined (g.separatedByZeroOrMore separator)
  | remark {α : Type} (tell : Moment → Nat → List ν) {g : Grammar ρ υ ν α} (hg : IsCombined g) :
    IsCombined (.remark tell g)

/-! The other combinators are made with these. -/

namespace IsCombined

variable {α β γ : Type} {g : Grammar ρ υ ν α} {h : Grammar ρ υ ν β} {k : Grammar ρ υ ν γ}

theorem filter (test : α → Bool) (hg : IsCombined g) : IsCombined (g.filter test) := by
  refine hg.andThen fun a => ?_
  split
  · exact succeed a
  · exact fail _

theorem seq (hg : IsCombined g) (hh : IsCombined h) : IsCombined (g.seq h) :=
  hg.andThen fun _ => hh.map _

theorem skip (hg : IsCombined g) (hh : IsCombined h) : IsCombined (g.skip h) :=
  hg.andThen fun _ => hh.map _

theorem skipLeft (hg : IsCombined g) (hh : IsCombined h) : IsCombined (g.skipLeft h) :=
  hg.andThen fun _ => hh

theorem zeroOrOne (hg : IsCombined g) : IsCombined g.zeroOrOne :=
  (hg.map some).orElse (succeed none)

theorem oneOrMore (hg : IsCombined g) : IsCombined g.oneOrMore := hg.atLeast 1

theorem surroundedWith (hg : IsCombined g) (hh : IsCombined h) (hk : IsCombined k) :
    IsCombined (g.surroundedWith h k) :=
  (hh.skipLeft hg).skip hk

theorem trim (hg : IsCombined g) : IsCombined g.trim := (pattern _).skipLeft hg

theorem token (r : String) : IsCombined (token r : Grammar ρ υ ν String) := (pattern _).trim

theorem endOfInput : IsCombined (endOfInput : Grammar ρ υ ν Unit) := (pattern _).map _

end IsCombined

theorem eq_of_between {α : Type} {least most : Nat} {g : Grammar ρ υ ν α}
    {h : Grammar ρ υ ν (List α)} (hb : between least most g = .ok h) :
    h = (g.exactly least).bind fun first => (many (some (most - least)) g).map (first ++ ·) := by
  unfold Grammar.between at hb
  split at hb <;> cases hb
  rfl

/-- No combinator commits. -/
theorem IsCombined.isPlain {α : Type} {g : Grammar ρ υ ν α} (hg : IsCombined g) :
    g.IsPlain fun _ => True := by
  have hmap : ∀ {α β : Type} (f : α → β) {g : Grammar ρ υ ν α}, (g.IsPlain fun _ => True) →
      (g.map f).IsPlain fun _ => True := fun f _ hg => ⟨hg, fun _ => trivial⟩
  induction hg with
  | pattern p =>
    cases p with
    | ok p => trivial
    | error e => trivial
  | succeed a => trivial
  | fail e => trivial
  | rule r => trivial
  | map f hg ih => exact hmap f ih
  | andThen hg hnext ih ihnext => exact ⟨ih, ihnext⟩
  | orElse hg hh ihg ihh => exact ⟨ihg, ihh⟩
  | label m hg ih => exact ih
  | zeroOrMore hg ih => exact ih
  | exactly n hg ih => exact ih
  | atLeast n hg ih => exact ⟨ih, fun first => hmap _ ih⟩
  | between hg hb ih =>
    rw [eq_of_between hb]
    exact ⟨ih, fun first => hmap _ ih⟩
  | separatedByOneOrMore hg hs ihg ihs => exact ⟨ihg, fun first => hmap _ ⟨ihs, fun _ => ihg⟩⟩
  | separatedByZeroOrMore hg hs ihg ihs =>
    refine ⟨⟨hmap _ ihg, trivial⟩, fun first => ?_⟩
    cases first with
    | none => trivial
    | some first => exact hmap _ ⟨ihs, fun _ => ihg⟩
  | remark tell hg ih => exact ih

variable [Source σ]

/-- The place of the item at which a repetition fails for good, if that is why a grammar fails, and if
no attempt or transaction goes back behind it.  The places of the rules are given. -/
def breakingPoint (rules : ρ → Action (Stream σ) ν υ)
    (points : ρ → Session (Stream σ) ν → Option Nat) (bound : Nat) :
    {α : Type} → Grammar ρ υ ν α → Session (Stream σ) ν → Option Nat
  | _, bind g next =>
    Action.breakingPointThen (action rules bound g) (breakingPoint rules points bound g) fun a =>
      breakingPoint rules points bound (next a)
  | _, orElse g h =>
    Action.breakingPointElse (action rules bound g) (breakingPoint rules points bound h)
  | _, label _ g => breakingPoint rules points bound g
  | _, rule r => points r
  | _, many most g => Action.breakingPoint (action rules bound g) most bound
  | _, remark tell g => fun s => breakingPoint rules points bound g (Action.entered tell s)
  | _, _ => fun _ => none

/-- The breaking point of a rule, where rules may call rules to the depth of the bound `n`. -/
def ruleBreakingPoint (rules : ρ → Grammar ρ υ ν υ) (bound : Nat) :
    Nat → ρ → Session (Stream σ) ν → Option Nat
  | 0, _ => fun _ => none
  | n + 1, r =>
    breakingPoint (ruleAction rules bound n) (ruleBreakingPoint rules bound n) bound (rules r)

/-- The breaking point of a run. -/
def runBreakingPoint {α : Type} (rules : ρ → Grammar ρ υ ν υ) (bound : Nat)
    (g : Grammar ρ υ ν α) : Session (Stream σ) ν → Option Nat :=
  breakingPoint (ruleAction rules bound bound) (ruleBreakingPoint rules bound bound) bound g

section Failure

variable {rules : ρ → Action (Stream σ) ν υ} {points : ρ → Session (Stream σ) ν → Option Nat}

open StreamParser.Action

theorem keepsOk_action (bound : Nat) (hk : ∀ r, KeepsOk (rules r)) {α : Type} {g : Grammar ρ υ ν α}
    (hg : IsCombined g) : KeepsOk (action rules bound g) :=
  keeps_action Tokenizer.stable_ok hk bound g hg.isPlain

variable {bound : Nat}

/-- A repetition at the end of a combinator fails only by breaking. -/
theorem breaksAt_map_many (hk : ∀ r, KeepsOk (rules r)) {α β : Type} (f : List α → β)
    (most : Option Nat) {g : Grammar ρ υ ν α} (hg : IsCombined g) :
    BreaksAt (breakingPoint rules points bound ((many most g).map f))
      (action rules bound ((many most g).map f)) := by
  have hkeeps := keepsOk_action bound hk hg
  exact (breaksAt_many hkeeps most bound).bind (hkeeps.many Tokenizer.stable_ok most bound)
    fun a => breaksAt_pure _ (f a)

/-- A number of items in a transaction, and more of them in a repetition. -/
theorem failsAt_exactly_many (hk : ∀ r, KeepsOk (rules r)) {α : Type} (least : Nat)
    (most : Option Nat) {g : Grammar ρ υ ν α} (hg : IsCombined g) :
    FailsAt (breakingPoint rules points bound
        ((g.exactly least).bind fun first => (many most g).map (first ++ ·)))
      (action rules bound
        ((g.exactly least).bind fun first => (many most g).map (first ++ ·))) := by
  have hexactly := (keepsOk_action bound hk hg).times least
  exact (failsAt_transaction hexactly).bind (hexactly.transaction Tokenizer.stable_ok)
    fun first => breaksAt_map_many hk _ most hg

/-- A combined grammar that fails is at its breaking point, or where it began. -/
theorem failsAt_action (hk : ∀ r, KeepsOk (rules r)) (hf : ∀ r, FailsAt (points r) (rules r))
    {α : Type} {g : Grammar ρ υ ν α} (hg : IsCombined g) :
    FailsAt (breakingPoint rules points bound g) (action rules bound g) := by
  induction hg with
  | pattern p =>
    cases p with
    | ok p => exact failsAt_matchPattern p
    | error e => exact failsAt_fail _
  | succeed a => exact (breaksAt_pure _ a).failsAt
  | fail e => exact failsAt_fail e
  | rule r => exact hf r
  | map f hg ih =>
    exact ih.bind (keepsOk_action bound hk hg) fun a => breaksAt_pure _ (f a)
  | andThen hg hnext =>
    -- a transaction goes back from wherever its parts fail
    have hbind := (keepsOk_action bound hk hg).bind fun a => keepsOk_action bound hk (hnext a)
    exact failsAt_transaction hbind
  | orElse hg hh ihg ihh => exact ihh.orElse (keepsOk_action bound hk hg)
  | label m hg ih => exact ih.mapError fun e => rfl
  | zeroOrMore hg ih => exact (breaksAt_many (keepsOk_action bound hk hg) none bound).failsAt
  | exactly n hg ih =>
    exact failsAt_transaction ((keepsOk_action bound hk hg).times n)
  | atLeast n hg ih => exact failsAt_exactly_many hk n none hg
  | @between α least most g h hg hb ih =>
    rw [eq_of_between hb]
    exact failsAt_exactly_many hk least _ hg
  | separatedByOneOrMore hg hs ihg ihs =>
    have hkeeps := keepsOk_action bound hk hg
    exact (failsAt_attempt hkeeps).bind (hkeeps.attempt Tokenizer.stable_ok)
      fun first => breaksAt_map_many hk _ none (hs.skipLeft hg)
  | separatedByZeroOrMore hg hs ihg ihs =>
    have hkeeps := keepsOk_action bound hk hg.zeroOrOne
    have hfirst := (breaksAt_pure (fun _ => none) none).failsAt.orElse
      (keepsOk_action bound hk (hg.map some))
    refine hfirst.bind hkeeps fun first => ?_
    -- without a first item nothing is repeated
    cases first with
    | none => exact breaksAt_pure _ []
    | some first => exact breaksAt_map_many hk _ none (hs.skipLeft hg)
  | remark tell hg ih => exact ih.remark tell

end Failure

/-- Rules fail at their breaking points too, however deep they call each other. -/
theorem failsAt_ruleAction {rules : ρ → Grammar ρ υ ν υ} (hr : ∀ r, IsCombined (rules r))
    (bound n : Nat) (r : ρ) :
    Action.FailsAt (ruleBreakingPoint rules bound n r)
      (ruleAction rules bound n r : Action (Stream σ) ν υ) := by
  induction n generalizing r with
  | zero =>
    intro s e s' hs h
    cases h
  | succ n ih =>
    have hk := keeps_ruleAction (σ := σ) Tokenizer.stable_ok (fun r => (hr r).isPlain) bound n
    exact failsAt_action hk ih (hr r)

/-- **Where a failure leaves a stream.**  The run of a combined grammar over any reachable tokenizer,
with no trial open, leaves the stream at its breaking point if it fails and has one; otherwise it
leaves the stream where it was.  So the stream is where it was unless a repetition outside of every
attempt and transaction fails for good at an item behind its first ones.  An error from which there
is recovery always leaves the stream where it was. -/
theorem position_of_failure {rules : ρ → Grammar ρ υ ν υ} (hr : ∀ r, IsCombined (rules r))
    {α : Type} {g : Grammar ρ υ ν α} (hg : IsCombined g) (bound : Nat) {t : Tokenizer σ}
    (ht : t.Reachable) (journal : List ν) {e : ParseError} {s' : Session (Stream σ) ν}
    (h : run rules bound g ⟨Stream.start t, journal⟩ = some (.error e, s')) :
    s'.input.position =
        (runBreakingPoint rules bound g ⟨Stream.start t, journal⟩).getD t.position ∧
      (s'.input.position = t.position ↔
        ∀ p, runBreakingPoint rules bound g ⟨Stream.start t, journal⟩ = some p →
          p = t.position) ∧
      (e.isRecoverable = true → s'.input.position = t.position) := by
  have hk := keeps_ruleAction (σ := σ) Tokenizer.stable_ok (fun r => (hr r).isPlain) bound bound
  have hfails : Action.FailsAt (runBreakingPoint rules bound g) (run rules bound g) :=
    failsAt_action hk (failsAt_ruleAction hr bound bound) hg
  have htop : Action.AtTop (⟨Stream.start t, journal⟩ : Session (Stream σ) ν) := ⟨ht.ok, rfl⟩
  obtain ⟨hposition, hrecover⟩ := hfails _ e s' htop h
  have hposition : s'.input.position =
      (runBreakingPoint rules bound g ⟨Stream.start t, journal⟩).getD t.position := hposition
  have hrecover : e.isRecoverable = true →
      runBreakingPoint rules bound g ⟨Stream.start t, journal⟩ = none := hrecover
  refine ⟨hposition, ?_, fun he => ?_⟩
  · rw [hposition]
    cases runBreakingPoint rules bound g ⟨Stream.start t, journal⟩ with
    | none => simp
    | some p => simp
  · rw [hposition, hrecover he]
    rfl

/-- Letters `a`, as many as there are. -/
def letters : Grammar Empty Unit Empty (List String) :=
  zeroOrMore (pattern (.ok ⟨"a", .chars (.single 'a')⟩))

/-- A tokenizer of two letters, after the first of which the source fails. -/
def interrupted : Tokenizer Script :=
  ⟨⟨[0x61, 0x61], [.hand 1, .fail ⟨.other, "boom"⟩], none⟩, .empty 8, .uninitialized, false,
    .empty 1, none, []⟩

/-- The first letter is read, the second is not, and the stream stays between them. -/
theorem letters_stay :
    interrupted.Reachable ∧ IsCombined letters ∧ ∃ s',
      run Empty.elim 3 letters ⟨Stream.start interrupted, []⟩ =
        some (.error (.token (.io ⟨.other, "boom"⟩)), s') ∧
      s'.input.position = 1 ∧ interrupted.position = 0 := by
  have hreachable : interrupted.Reachable := .fresh (.inr ⟨⟨8, 1, none⟩, rfl⟩)
  have hletters : IsCombined letters := (IsCombined.pattern _).zeroOrMore
  have herror : (run Empty.elim 3 letters ⟨Stream.start interrupted, []⟩).map Prod.fst =
      some (.error (.token (.io ⟨.other, "boom"⟩))) := by decide +kernel
  have hpoint : runBreakingPoint Empty.elim 3 letters ⟨Stream.start interrupted, []⟩ =
      some 1 := by decide +kernel
  obtain ⟨⟨r, s'⟩, hrun, rfl⟩ := Option.map_eq_some_iff.1 herror
  obtain ⟨hposition, -⟩ :=
    position_of_failure (fun r => r.elim) hletters 3 hreachable [] hrun
  rw [hpoint] at hposition
  exact ⟨hreachable, hletters, s', hrun, hposition, rfl⟩

end Grammar

end StreamParser
