import StreamParser.Grammar.Run
import StreamParser.Input.Stream
import StreamParser.Proofs.Tokenizer.Search

/-!
# Trials come back

* `Grammar.IsPlain` says that a grammar gives up no places to go back to.
* A run of a plain grammar over a stream may read and set marks, but in the end the same marks are
  held and the same trials are open as in the beginning: `Grammar.keeps_run`.  The same goes for any
  property of tokenizers that is kept by the operations which the run is made of
  (`Tokenizer.Stable`).
* So the mark of a trial is held when the trial ends, and the trial can come back to it:
  `Action.attempt_cases` says what an attempt does.
-/

namespace StreamParser

variable {σ : Type}

/-! ### Properties of tokenizers -/

/-- A property of tokenizers that the operations of a grammar keep.  The patterns are restricted. -/
structure Tokenizer.Stable [Source σ] (I : Tokenizer σ → Prop) (P : Pattern → Prop) : Prop where
  ok : ∀ t, I t → t.window.Ok
  rawNext : ∀ t p, I t → P p → I (t.rawNext p).2
  mark : ∀ t, I t → I t.mark.2
  reset : ∀ t m, I t → I (t.reset m).2
  release : ∀ t m, I t → I (t.release m).2

/-- To be well formed is such a property. -/
theorem Tokenizer.stable_ok [Source σ] :
    Stable (fun t : Tokenizer σ => t.window.Ok) fun _ => True where
  ok _ h := h
  rawNext _ p h _ := (sameMarks_rawNext h p).1
  mark _ h := h.mark
  reset _ m h := ok_reset h m
  release _ m h := h.release m

/-! ### Streams -/

namespace Stream

/-- From one stream to a later one the marks and the trials are the same, and the later tokenizer has
a property. -/
structure Kept (I : Tokenizer σ → Prop) (s s' : Stream σ) : Prop where
  holds : I s'.tokenizer
  marks_eq : s'.tokenizer.window.marks = s.tokenizer.window.marks
  capacity_eq : s'.tokenizer.window.capacity = s.tokenizer.window.capacity
  trials_eq : s'.trials = s.trials

variable {I : Tokenizer σ → Prop} {P : Pattern → Prop}

theorem Kept.refl {s : Stream σ} (h : I s.tokenizer) : Kept I s s := ⟨h, rfl, rfl, rfl⟩

theorem Kept.trans {s s' s'' : Stream σ} (h : Kept I s s') (h' : Kept I s' s'') : Kept I s s'' where
  holds := h'.holds
  marks_eq := h'.marks_eq.trans h.marks_eq
  capacity_eq := h'.capacity_eq.trans h.capacity_eq
  trials_eq := h'.trials_eq.trans h.trials_eq

/-- Of the marks that are held when a trial ends, its own is given up and the others stay. -/
theorem filter_marks {s s₁ : Stream σ} (hs : s.tokenizer.window.Ok)
    (hk : s₁.tokenizer.window.marks = s.begin.2.tokenizer.window.marks) :
    s₁.tokenizer.window.marks.filter (fun n => n.id != s.begin.1.id) =
      s.tokenizer.window.marks := by
  have hmarks : s.begin.2.tokenizer.window.marks = s.tokenizer.window.marks ++ [s.begin.1] := rfl
  -- numbers are never given out twice
  have hold : ∀ n ∈ s.tokenizer.window.marks, (n.id != s.begin.1.id) = true := by
    intro n hn
    have hlt : n.id < s.begin.1.id := hs.marks_lt n hn
    simp only [bne_iff_ne, ne_eq]
    omega
  rw [hk, hmarks, List.filter_append, List.filter_eq_self.2 hold]
  simp

variable [Source σ]

/-- The tokenizer reads, and the stream wraps its error. -/
theorem matchPattern_eq (s : Stream σ) (p : Pattern) : s.matchPattern p =
    ((s.tokenizer.rawNext p).1.mapError .token,
      { s with tokenizer := (s.tokenizer.rawNext p).2 }) := by
  unfold matchPattern
  rcases s.tokenizer.rawNext p with ⟨e | token, t⟩
  · rfl
  · rfl

theorem tokenizer_matchPattern (s : Stream σ) (p : Pattern) :
    (s.matchPattern p).2.tokenizer = (s.tokenizer.rawNext p).2 := by
  rw [matchPattern_eq]

/-- Tokenizers that answer alike make streams that do. -/
theorem matchPattern_congr {s u : Stream σ} {p : Pattern}
    (h : (s.tokenizer.rawNext p).1 = (u.tokenizer.rawNext p).1) :
    (s.matchPattern p).1 = (u.matchPattern p).1 := by
  rw [matchPattern_eq, matchPattern_eq, h]

theorem kept_matchPattern (hI : Tokenizer.Stable I P) {s : Stream σ} (h : I s.tokenizer)
    {p : Pattern} (hp : P p) : Kept I s (s.matchPattern p).2 := by
  have hmarks := (Tokenizer.sameMarks_rawNext (hI.ok _ h) p).2
  have hnext := hI.rawNext _ p h hp
  rw [matchPattern_eq]
  exact ⟨hnext, hmarks.marks_eq, hmarks.capacity_eq, rfl⟩

/-- A trial that succeeds leaves everything where it is. -/
theorem kept_succeeded (hI : Tokenizer.Stable I P) {s s₁ : Stream σ} (h : I s.tokenizer)
    (hk : Kept I s.begin.2 s₁) :
    Kept I s (succeeded s.begin.1 s₁) ∧ (succeeded s.begin.1 s₁).position = s₁.position := by
  refine ⟨⟨hI.release _ _ hk.holds, ?_, hk.capacity_eq, ?_⟩, rfl⟩
  · exact filter_marks (hI.ok _ h) hk.marks_eq
  · show s₁.trials - 1 = s.trials
    rw [hk.trials_eq]
    rfl

/-- A trial that fails goes back to the place where it began, and reports its failure. -/
theorem kept_failed (hI : Tokenizer.Stable I P) {s s₁ : Stream σ} (h : I s.tokenizer)
    (hk : Kept I s.begin.2 s₁) (e : ParseError) :
    (failed s.begin.1 e s₁).1 = e ∧ Kept I s (failed s.begin.1 e s₁).2 ∧
      (failed s.begin.1 e s₁).2.position = s.position := by
  -- the mark of the trial is held, since what was tried has kept the marks
  have hok := hI.ok _ hk.holds
  have hmem : s.begin.1 ∈ s₁.tokenizer.window.marks := by
    rw [hk.marks_eq]
    exact List.mem_append_right _ (List.mem_singleton.2 rfl)
  have hheld : s₁.tokenizer.holds s.begin.1 = true :=
    Window.holds_iff.2 ⟨s.begin.1, hmem, rfl⟩
  have hwindow := hok.reset_of_mem hmem
  have hreset : s₁.tokenizer.reset s.begin.1 = (.ok (), { s₁.tokenizer with
      window := { s₁.tokenizer.window with
        cursor := s.begin.1.offset - s₁.tokenizer.window.discarded } }) := by
    unfold Tokenizer.reset
    rw [if_pos hheld, hwindow]
  have hstable := hI.reset _ s.begin.1 hk.holds
  rw [hreset] at hstable
  unfold failed
  simp only [hheld, if_true, hreset]
  refine ⟨trivial, ⟨hI.release _ _ hstable, ?_, hk.capacity_eq, ?_⟩, ?_⟩
  · exact filter_marks (hI.ok _ h) hk.marks_eq
  · show s₁.trials - 1 = s.trials
    rw [hk.trials_eq]
    rfl
  · have hposition := Window.position_reset hwindow
    exact hposition

end Stream

/-! ### Parts of a run -/

namespace Action

variable {ν α β : Type} {I : Tokenizer σ → Prop} {P : Pattern → Prop}

/-- The marks and the trials are the same after a part of a run. -/
def Keeps (I : Tokenizer σ → Prop) (x : Action (Stream σ) ν α) : Prop :=
  ∀ s r s', I s.input.tokenizer → x s = some (r, s') → Stream.Kept I s.input s'.input

theorem keeps_pure (a : α) : Keeps I (pure a : Action (Stream σ) ν α) := by
  intro s r s' hs h
  cases h
  exact .refl hs

theorem keeps_fail (e : ParseError) : Keeps I (fail e : Action (Stream σ) ν α) := by
  intro s r s' hs h
  cases h
  exact .refl hs

theorem Keeps.bind {x : Action (Stream σ) ν α} {f : α → Action (Stream σ) ν β} (hx : Keeps I x)
    (hf : ∀ a, Keeps I (f a)) : Keeps I (bind x f) := by
  intro s r s' hs h
  unfold Action.bind at h
  split at h
  · cases h
  · rename_i a s₁ h₁
    have hkept := hx s _ s₁ hs h₁
    exact hkept.trans (hf a s₁ r s' hkept.holds h)
  · rename_i e s₁ h₁
    cases h
    exact hx s _ s' hs h₁

theorem Keeps.mapError {x : Action (Stream σ) ν α} (hx : Keeps I x)
    (f : ParseError → ParseError) : Keeps I (mapError f x) := by
  intro s r s' hs h
  unfold Action.mapError at h
  split at h
  · cases h
  · rename_i a s₁ h₁
    cases h
    exact hx s _ s' hs h₁
  · rename_i e s₁ h₁
    cases h
    exact hx s _ s' hs h₁

theorem Keeps.times {x : Action (Stream σ) ν α} (hx : Keeps I x) (n : Nat) :
    Keeps I (times x n) := by
  induction n with
  | zero => exact keeps_pure []
  | succ n ih => exact hx.bind fun a => ih.bind fun l => keeps_pure (a :: l)

variable [Source σ]

/-- A session in which the remarks were made that come before a part of a grammar. -/
def entered (tell : Moment → Nat → List ν) (s : Session (Stream σ) ν) : Session (Stream σ) ν :=
  { s with journal := (tell .entry (Input.position s.input)).reverse ++ s.journal }

theorem Keeps.remark {x : Action (Stream σ) ν α} (hx : Keeps I x)
    (tell : Moment → Nat → List ν) : Keeps I (remark tell x) := by
  intro s r s' hs h
  unfold Action.remark at h
  simp only at h
  split at h
  · cases h
  · rename_i a s₁ h₁
    cases h
    have hkept := hx (entered tell s) _ s₁ hs h₁
    exact hkept
  · rename_i e s₁ h₁
    cases h
    have hkept := hx (entered tell s) _ s₁ hs h₁
    exact hkept

theorem keeps_matchPattern (hI : Tokenizer.Stable I P) {p : Pattern} (hp : P p) :
    Keeps I (matchPattern p : Action (Stream σ) ν String) := by
  intro s r s' hs h
  cases h
  exact Stream.kept_matchPattern hI hs hp

/-- A session in which a trial has begun. -/
def begun (s : Session (Stream σ) ν) : Session (Stream σ) ν := { s with input := s.input.begin.2 }

theorem attempt_of_none {x : Action (Stream σ) ν α} {s : Session (Stream σ) ν}
    (h : x (begun s) = none) : attempt x s = none := by
  have h' : x { s with input := (Input.begin s.input).2 } = none := h
  simp only [Action.attempt, h']

theorem attempt_of_ok {x : Action (Stream σ) ν α} {s s₁ : Session (Stream σ) ν} {a : α}
    (h : x (begun s) = some (.ok a, s₁)) :
    attempt x s =
      some (.ok a, { s₁ with input := Stream.succeeded s.input.begin.1 s₁.input }) := by
  have h' : x { s with input := (Input.begin s.input).2 } = some (.ok a, s₁) := h
  simp only [Action.attempt, h']
  rfl

theorem attempt_of_error {x : Action (Stream σ) ν α} {s s₁ : Session (Stream σ) ν}
    {e : ParseError} (h : x (begun s) = some (.error e, s₁)) :
    attempt x s = some (.error (Stream.failed s.input.begin.1 e s₁.input).1,
      { s₁ with input := (Stream.failed s.input.begin.1 e s₁.input).2 }) := by
  have h' : x { s with input := (Input.begin s.input).2 } = some (.error e, s₁) := h
  simp only [Action.attempt, h']
  rfl

/-- What an attempt does: it has the result of what is tried, and comes back after a failure. -/
theorem attempt_cases (hI : Tokenizer.Stable I P) {x : Action (Stream σ) ν α} (hx : Keeps I x)
    {s : Session (Stream σ) ν} (hs : I s.input.tokenizer) :
    (x (begun s) = none ∧ attempt x s = none) ∨
      (∃ a s₁ s', x (begun s) = some (.ok a, s₁) ∧ attempt x s = some (.ok a, s') ∧
        Stream.Kept I s.input s'.input ∧ s'.input.position = s₁.input.position) ∨
      ∃ e s₁ s', x (begun s) = some (.error e, s₁) ∧ attempt x s = some (.error e, s') ∧
        Stream.Kept I s.input s'.input ∧ s'.input.position = s.input.position := by
  have hbegun : I (begun s).input.tokenizer := hI.mark _ hs
  rcases h : x (begun s) with _ | ⟨e | a, s₁⟩
  · exact .inl ⟨rfl, attempt_of_none h⟩
  · have hkept := hx _ _ s₁ hbegun h
    obtain ⟨herror, hfailed, hposition⟩ := Stream.kept_failed hI hs hkept e
    have hattempt := attempt_of_error h
    rw [herror] at hattempt
    exact .inr (.inr ⟨e, s₁, _, rfl, hattempt, hfailed, hposition⟩)
  · have hkept := hx _ _ s₁ hbegun h
    obtain ⟨hsucceeded, hposition⟩ := Stream.kept_succeeded hI hs hkept
    exact .inr (.inl ⟨a, s₁, _, rfl, attempt_of_ok h, hsucceeded, hposition⟩)

theorem Keeps.attempt (hI : Tokenizer.Stable I P) {x : Action (Stream σ) ν α} (hx : Keeps I x) :
    Keeps I (attempt x) := by
  intro s r s' hs h
  rcases attempt_cases hI hx hs with ⟨-, h'⟩ | ⟨a, s₁, s₂, -, h', hkept, -⟩ |
    ⟨e, s₁, s₂, -, h', hkept, -⟩ <;> rw [h] at h' <;> cases h' <;> exact hkept

theorem Keeps.transaction (hI : Tokenizer.Stable I P) {x : Action (Stream σ) ν α}
    (hx : Keeps I x) : Keeps I (transaction x) := by
  intro s r s' hs h
  unfold Action.transaction at h
  split at h
  · exact hx s r s' hs h
  · exact hx.attempt hI s r s' hs h

theorem Keeps.orElse (hI : Tokenizer.Stable I P) {x y : Action (Stream σ) ν α}
    (hx : Keeps I x) (hy : Keeps I y) : Keeps I (orElse x y) := by
  intro s r s' hs h
  have hattempt := hx.attempt hI
  unfold Action.orElse at h
  split at h
  · rename_i e s₁ h₁
    have hkept := hattempt s _ s₁ hs h₁
    split at h
    · exact hkept.trans (hy s₁ r s' hkept.holds h)
    · cases h
      exact hkept
  · exact hattempt s r s' hs h

theorem Keeps.many (hI : Tokenizer.Stable I P) {x : Action (Stream σ) ν α} (hx : Keeps I x)
    (most : Option Nat) (n : Nat) : Keeps I (many x most n) := by
  have hattempt := hx.attempt hI
  induction n generalizing most with
  | zero =>
    intro s r s' hs h
    cases h
  | succ n ih =>
    intro s r s' hs h
    unfold Action.many at h
    split at h
    · cases h
      exact .refl hs
    · split at h
      · cases h
      · rename_i e t ht
        have hkept := hattempt s _ t hs ht
        split at h <;> cases h <;> exact hkept
      · rename_i a t ht
        have hkept := hattempt s _ t hs ht
        split at h
        · cases h
          exact hkept
        · have hrest := (ih (most.map (· - 1))).bind fun l => keeps_pure (a :: l)
          exact hkept.trans (hrest t r s' hkept.holds h)

end Action

/-! ### Grammars -/

namespace Grammar

variable [Source σ] {ρ υ ν : Type} {I : Tokenizer σ → Prop} {P : Pattern → Prop}

/-- A grammar that does not give up places to go back to, and whose patterns are in `P`. -/
def IsPlain (P : Pattern → Prop) : {α : Type} → Grammar ρ υ ν α → Prop
  | _, pattern (.ok p) => P p
  | _, pattern (.error _) => True
  | _, succeed _ => True
  | _, fail _ => True
  | _, bind g next => g.IsPlain P ∧ ∀ a, (next a).IsPlain P
  | _, transaction g => g.IsPlain P
  | _, attempt g => g.IsPlain P
  | _, orElse g h => g.IsPlain P ∧ h.IsPlain P
  | _, label _ g => g.IsPlain P
  | _, commit _ => False
  | _, letGo _ => False
  | _, rule _ => True
  | _, times _ g => g.IsPlain P
  | _, many _ g => g.IsPlain P
  | _, remark _ g => g.IsPlain P

/-- A plain grammar keeps the marks and the trials, if the rules do. -/
theorem keeps_action (hI : Tokenizer.Stable I P) {rules : ρ → Action (Stream σ) ν υ}
    (hr : ∀ r, Action.Keeps I (rules r)) (bound : Nat) {α : Type} (g : Grammar ρ υ ν α)
    (hg : g.IsPlain P) : Action.Keeps I (action rules bound g) := by
  induction g with
  | pattern p =>
    cases p with
    | ok p => exact Action.keeps_matchPattern hI hg
    | error e => exact Action.keeps_fail _
  | succeed a => exact Action.keeps_pure a
  | fail e => exact Action.keeps_fail e
  | bind g next ihg ihnext => exact (ihg hg.1).bind fun a => ihnext a (hg.2 a)
  | transaction g ih => exact (ih hg).transaction hI
  | attempt g ih => exact (ih hg).attempt hI
  | orElse g h ihg ihh => exact (ihg hg.1).orElse hI (ihh hg.2)
  | label m g ih => exact (ih hg).mapError _
  | commit g ih => exact hg.elim
  | letGo g ih => exact hg.elim
  | rule r => exact hr r
  | times n g ih => exact (ih hg).times n
  | many most g ih => exact (ih hg).many hI most bound
  | remark tell g ih => exact (ih hg).remark tell

/-- Rules keep the marks and the trials, however deep they call each other. -/
theorem keeps_ruleAction (hI : Tokenizer.Stable I P) {rules : ρ → Grammar ρ υ ν υ}
    (hr : ∀ r, (rules r).IsPlain P) (bound n : Nat) (r : ρ) :
    Action.Keeps I (ruleAction rules bound n r : Action (Stream σ) ν υ) := by
  induction n generalizing r with
  | zero =>
    intro s result s' hs h
    cases h
  | succ n ih => exact keeps_action hI ih bound (rules r) (hr r)

/-- A run of a plain grammar keeps the marks and the trials. -/
theorem keeps_run (hI : Tokenizer.Stable I P) {rules : ρ → Grammar ρ υ ν υ}
    (hr : ∀ r, (rules r).IsPlain P) (bound : Nat) {α : Type} {g : Grammar ρ υ ν α}
    (hg : g.IsPlain P) : Action.Keeps I (run rules bound g : Action (Stream σ) ν α) :=
  keeps_action hI (keeps_ruleAction hI hr bound bound) bound g hg

end Grammar

end StreamParser
