import StreamParser.Input.Cursor
import StreamParser.Proofs.Grammar.Trials
import StreamParser.Proofs.Tokenizer.Upkeep

/-!
# Streams read like cursors

A grammar can be run over a cursor, which has the whole text at hand, or over a stream, whose
tokenizer has only a window of it.

* `Session.Sim` relates a session over a cursor with one over a stream at the same place of the same
  text; `Action.Simulates` says that a part of a run goes the same way over both, or that the window
  overflows.  Each kind of step has a lemma (`Action.Simulates.bind`, `Action.Simulates.attempt`,
  ...).
* `Grammar.run_stream_agrees`: the run of a plain grammar over a fresh stream gives the answer of the
  run over a cursor, however the source cuts the text, unless the window overflows.
-/

namespace StreamParser

/-! ### Errors -/

namespace ParseError

/-- The window had no room for what had to be kept. -/
def IsOverflow (e : ParseError) : Prop :=
  (∃ capacity, e.deepest = .token (.noSuchElement (.exceedsBuffer capacity))) ∨
    ∃ capacity pinned, e.deepest = .token (.windowFull capacity pinned)

/-- There is no recovery from an overflow, whatever it is explained with. -/
theorem IsOverflow.not_isRecoverable {e : ParseError} (h : e.IsOverflow) :
    e.isRecoverable = false := by
  induction e with
  | failure m => rcases h with ⟨n, h⟩ | ⟨n, k, h⟩ <;> cases h
  | caused m e ih => exact ih h
  | expected p n => rcases h with ⟨n, h⟩ | ⟨n, k, h⟩ <;> cases h
  | noMatchingElement => rcases h with ⟨n, h⟩ | ⟨n, k, h⟩ <;> cases h
  | invalidArgument m => rfl
  | committed n e ih => rfl
  | token e => rcases h with ⟨n, h⟩ | ⟨n, k, h⟩ <;> cases h <;> rfl
  | pattern e => rfl

/-- Two errors from which there is recovery or not, and that are overflows or not, alike. -/
def Alike (e e' : ParseError) : Prop :=
  e.isRecoverable = e'.isRecoverable ∧ (e.IsOverflow ↔ e'.IsOverflow)

theorem Alike.refl (e : ParseError) : e.Alike e := ⟨rfl, Iff.rfl⟩

theorem Alike.caused {e e' : ParseError} (h : e.Alike e') (m : String) :
    (caused m e).Alike (caused m e') := h

/-- Errors from which there is recovery are alike. -/
theorem Alike.of_isRecoverable {e e' : ParseError} (h : e.isRecoverable = true)
    (h' : e'.isRecoverable = true) : e.Alike e' := by
  have hno : ∀ e : ParseError, e.isRecoverable = true → ¬ e.IsOverflow := by
    intro e he hover
    rw [hover.not_isRecoverable] at he
    cases he
  exact ⟨h.trans h'.symm, fun hover => absurd hover (hno e h), fun hover => absurd hover (hno e' h')⟩

theorem isOverflow_overflow (w : Whole) : (token w.overflow).IsOverflow := by
  unfold Whole.overflow
  split
  · exact .inl ⟨_, rfl⟩
  · exact .inr ⟨_, _, rfl⟩

theorem isRecoverable_mismatch (w : Whole) (p : Pattern) :
    (token (w.mismatch p)).isRecoverable = true := by
  unfold Whole.mismatch
  split
  · rfl
  · rfl

end ParseError

/-! ### Places -/

theorem Cursor.matchPattern_of_matched {p : Pattern} {c : Cursor} {stop : Nat} {token : String}
    (h : p.matchAt c.bytes c.position true = .ok (.matched stop))
    (ht : Utf8.text? ((c.bytes.take stop).drop c.position) = some token) :
    c.matchPattern p = (.ok token, { c with position := stop }) := by
  unfold Cursor.matchPattern
  rw [h]
  simp only [ht]

theorem Cursor.matchPattern_of_not_matched {p : Pattern} {c : Cursor} {st : MatchStatus}
    (h : p.matchAt c.bytes c.position true = .ok st) (hst : ∀ stop, st ≠ .matched stop) :
    c.matchPattern p = (.error (.expected p.source c.position), c) := by
  unfold Cursor.matchPattern
  rw [h]
  cases st with
  | matched stop => exact absurd rfl (hst stop)
  | needsInput => rfl
  | noMatch => rfl

/-- What a cursor reads and what a tokenizer with the whole stream reads, at the same place: the same
token, or none, unless the window overflows. -/
theorem Cursor.matchPattern_cases {p : Pattern} (hp : p.Streamable) {c : Cursor} {w : Whole}
    (hb : c.bytes = w.stream) (hc : w.position = c.position)
    (hw : w.position ≤ w.stream.length) :
    (∃ token stop, c.matchPattern p = (.ok token, { c with position := stop }) ∧
        w.rawNext p = (.ok token, { w with position := stop })) ∨
      (w.capacity ≤ w.stream.length ∧ w.rawNext p = (.error w.overflow, w)) ∨
      (c.matchPattern p = (.error (.expected p.source c.position), c) ∧
        w.rawNext p = (.error (w.mismatch p), w)) := by
  cases hlookup : w.lookup p with
  | ok stop =>
    have hmatch := Whole.matchAt_of_lookup hlookup
    obtain ⟨token, htext⟩ := Option.isSome_iff_exists.1 (Whole.isSome_text?_of_lookup hlookup)
    have hnext := Whole.rawNext_of_ok hlookup htext
    rw [← hb, hc] at hmatch htext
    exact .inl ⟨token, stop, matchPattern_of_matched hmatch htext, hnext⟩
  | error e =>
    have hnext := Whole.rawNext_of_error hlookup
    rcases Whole.cases_of_lookup_error hw hp hlookup with ⟨rfl, hle⟩ | ⟨rfl, st, hst, hno⟩
    · exact .inr (.inl ⟨hle, hnext⟩)
    · rw [← hb, hc] at hst
      exact .inr (.inr ⟨matchPattern_of_not_matched hst hno, hnext⟩)

variable {σ : Type} [Source σ] {ν α β : Type}

/-- What a tokenizer keeps up, the operations of a grammar keep. -/
theorem Tokenizer.Upheld.stable {I : Tokenizer σ → Prop} (hI : Upheld I) (P : Pattern → Prop) :
    Stable I P where
  ok _ h := hI.ok h
  rawNext _ p h _ := hI.rawNext h p
  mark _ h := hI.mark h
  reset _ m h := hI.reset h m
  release _ m h := hI.release h m

/-- To answer requests for a stream is kept by the operations of a grammar. -/
theorem Tokenizer.stable_serves (l : List UInt8) :
    Stable (fun t : Tokenizer σ => t.Serves l) Pattern.Streamable :=
  (upheld_serves l).stable _

/-- Two sessions at the same place of the text `l`, the second with a window of `n` bytes. -/
structure Session.Sim (l : List UInt8) (n : Nat) (c : Session Cursor ν)
    (s : Session (Stream σ) ν) : Prop where
  bytes_eq : c.input.bytes = l
  position_eq : s.input.position = c.input.position
  capacity_eq : s.input.tokenizer.window.capacity = n
  serves : s.input.tokenizer.Serves l

/-- The first session is somewhere in the text `l`. -/
def Session.Somewhere (l : List UInt8) (c : Session Cursor ν) (_ : Session (Stream σ) ν) : Prop :=
  c.input.bytes = l

namespace Action

open Session

variable {l : List UInt8} {n : Nat} {E : Session Cursor ν → Session (Stream σ) ν → Prop}

/-- The results of a part of a run over a cursor and over a stream with a window of `n` bytes.  After
a failure the sessions are as `E` says. -/
inductive Corresponds (l : List UInt8) (n : Nat)
    (E : Session Cursor ν → Session (Stream σ) ν → Prop) :
    Except ParseError α × Session Cursor ν → Except ParseError α × Session (Stream σ) ν → Prop
  | overflow {r : Except ParseError α × Session Cursor ν} {e : ParseError}
    {s : Session (Stream σ) ν} (he : e.IsOverflow) (hn : n ≤ l.length) :
    Corresponds l n E r (.error e, s)
  | ok {a : α} {c : Session Cursor ν} {s : Session (Stream σ) ν} (h : Sim l n c s) :
    Corresponds l n E (.ok a, c) (.ok a, s)
  | error {e e' : ParseError} {c : Session Cursor ν} {s : Session (Stream σ) ν}
    (he : e.Alike e') (h : E c s) : Corresponds l n E (.error e, c) (.error e', s)

/-- From the same place a part of a run over a stream goes as the one over a cursor. -/
def Simulates (l : List UInt8) (n : Nat) (E : Session Cursor ν → Session (Stream σ) ν → Prop)
    (x : Action Cursor ν α) (y : Action (Stream σ) ν α) : Prop :=
  ∀ c s, Sim l n c s → ∀ r, x c = some r → ∃ r', y s = some r' ∧ Corresponds l n E r r'

variable {x : Action Cursor ν α} {y : Action (Stream σ) ν α}

/-- Of a place only the text may be remembered. -/
theorem Corresponds.somewhere {r : Except ParseError α × Session Cursor ν}
    {r' : Except ParseError α × Session (Stream σ) ν} (h : Corresponds l n (Sim l n) r r') :
    Corresponds l n (Somewhere l) r r' := by
  cases h with
  | overflow he hn => exact .overflow he hn
  | ok h => exact .ok h
  | error he h => exact .error he h.bytes_eq

theorem simulates_pure (a : α) :
    Simulates l n E (pure a : Action Cursor ν α) (pure a : Action (Stream σ) ν α) := by
  intro c s h r hr
  cases hr
  exact ⟨_, rfl, .ok h⟩

theorem simulates_fail (e : ParseError) :
    Simulates l n (Somewhere l) (fail e : Action Cursor ν α)
      (fail e : Action (Stream σ) ν α) := by
  intro c s h r hr
  cases hr
  exact ⟨_, rfl, .error (.refl e) h.bytes_eq⟩

theorem Simulates.bind {f : α → Action Cursor ν β} {g : α → Action (Stream σ) ν β}
    (hx : Simulates l n E x y) (hf : ∀ a, Simulates l n E (f a) (g a)) :
    Simulates l n E (bind x f) (bind y g) := by
  intro c s h r hr
  unfold Action.bind at hr ⊢
  rcases hxc : x c with _ | ⟨e | a, c₁⟩ <;> rw [hxc] at hr
  · cases hr
  · cases hr
    obtain ⟨r', hy, hcorr⟩ := hx c s h _ hxc
    rw [hy]
    cases hcorr with
    | overflow he hn => exact ⟨_, rfl, .overflow he hn⟩
    | error he h => exact ⟨_, rfl, .error he h⟩
  · obtain ⟨r', hy, hcorr⟩ := hx c s h _ hxc
    rw [hy]
    cases hcorr with
    | overflow he hn => exact ⟨_, rfl, .overflow he hn⟩
    | ok h₁ => exact hf a c₁ _ h₁ r hr

theorem Simulates.label (hx : Simulates l n E x y) (m : String) :
    Simulates l n E (mapError (.caused m) x) (mapError (.caused m) y) := by
  intro c s h r hr
  unfold mapError at hr ⊢
  rcases hxc : x c with _ | ⟨e | a, c₁⟩ <;> rw [hxc] at hr <;> cases hr <;>
    obtain ⟨r', hy, hcorr⟩ := hx c s h _ hxc <;> rw [hy]
  · cases hcorr with
    | overflow he hn => exact ⟨_, rfl, .overflow he hn⟩
    | error he h => exact ⟨_, rfl, .error (he.caused m) h⟩
  · cases hcorr with
    | overflow he hn => exact ⟨_, rfl, .overflow he hn⟩
    | ok h₁ => exact ⟨_, rfl, .ok h₁⟩

theorem Simulates.times (hx : Simulates l n E x y) (k : Nat) :
    Simulates l n E (times x k) (times y k) := by
  induction k with
  | zero => exact simulates_pure []
  | succ k ih => exact hx.bind fun a => ih.bind fun rest => simulates_pure (a :: rest)

/-! ### Steps of an input -/

/-- A pattern that is matched against the whole text, or against what a window has of it. -/
theorem simulates_matchPattern {p : Pattern} (hp : p.Streamable) :
    Simulates l n (Somewhere l) (matchPattern p : Action Cursor ν String)
      (matchPattern p : Action (Stream σ) ν String) := by
  intro c s h r hr
  have hcursor : matchPattern p c =
      some ((c.input.matchPattern p).1, { c with input := (c.input.matchPattern p).2 }) := rfl
  have hstream : matchPattern p s =
      some ((s.input.matchPattern p).1, { s with input := (s.input.matchPattern p).2 }) := rfl
  obtain rfl := Option.some.inj (hcursor.symm.trans hr)
  refine ⟨_, hstream, ?_⟩
  -- the tokenizer answers as the whole stream does, which goes with the cursor
  obtain ⟨hserves, hanswer, hwhole⟩ := h.serves.rawNext hp
  have hcapacity := (Tokenizer.sameMarks_rawNext h.serves.ok p).2.capacity_eq
  have hplace : (s.input.tokenizer.whole l).position = c.input.position := h.position_eq
  unfold Stream.matchPattern
  rcases hraw : s.input.tokenizer.rawNext p with ⟨r, t⟩
  rw [hraw] at hserves hanswer hwhole hcapacity
  rcases Cursor.matchPattern_cases hp h.bytes_eq hplace h.serves.position_le with
    ⟨token, stop, hnext, hw⟩ | ⟨hle, hw⟩ | ⟨hnext, hw⟩ <;> rw [hw] at hanswer hwhole
  · obtain rfl : r = .ok token := hanswer
    rw [hnext]
    exact .ok ⟨h.bytes_eq, congrArg Whole.position hwhole, hcapacity.trans h.capacity_eq, hserves⟩
  · obtain rfl : r = .error _ := hanswer
    refine .overflow (ParseError.isOverflow_overflow _) ?_
    rw [← h.capacity_eq]
    exact hle
  · obtain rfl : r = .error _ := hanswer
    rw [hnext]
    exact .error (.of_isRecoverable rfl (ParseError.isRecoverable_mismatch _ p)) h.bytes_eq

/-- What an attempt over a cursor does. -/
theorem attempt_cursor (x : Action Cursor ν α) (c : Session Cursor ν) :
    attempt x c = match x c with
      | none => none
      | some (.ok a, c₁) => some (.ok a, c₁)
      | some (.error e, c₁) =>
        some (.error e, { c₁ with input := { c₁.input with position := c.input.position } }) := by
  have hbegin : x { c with input := (Input.begin c.input).2 } = x c := rfl
  unfold attempt
  simp only [hbegin]
  rcases x c with _ | ⟨e | a, c₁⟩
  · rfl
  · rfl
  · rfl

/-- An attempt over a stream succeeds and fails as over a cursor, and also comes back. -/
theorem Simulates.attempt (hx : Simulates l n (Somewhere l) x y)
    (hy : Keeps (fun t => t.Serves l) y) : Simulates l n (Sim l n) (attempt x) (attempt y) := by
  intro c s h r hr
  have hbegun : Sim l n c (begun s) :=
    ⟨h.bytes_eq, h.position_eq, h.capacity_eq, (Tokenizer.stable_serves l).mark _ h.serves⟩
  rw [attempt_cursor] at hr
  rcases hxc : x c with _ | r₁
  · rw [hxc] at hr
    cases hr
  obtain ⟨r', hyb, hcorr⟩ := hx c (begun s) hbegun r₁ hxc
  rw [hxc] at hr
  rcases attempt_cases (Tokenizer.stable_serves l) hy h.serves with ⟨hnone, -⟩ |
    ⟨a, s₁, s', hok, hattempt, hkept, hposition⟩ | ⟨e, s₁, s', herror, hattempt, hkept, hposition⟩
  · rw [hnone] at hyb
    cases hyb
  · rw [hok] at hyb
    obtain rfl := Option.some.inj hyb
    cases hcorr with
    | ok h₁ =>
      cases hr
      -- to give up the mark moves nothing
      exact ⟨_, hattempt, .ok ⟨h₁.bytes_eq, hposition.trans h₁.position_eq,
        hkept.capacity_eq.trans h.capacity_eq, hkept.holds⟩⟩
  · rw [herror] at hyb
    obtain rfl := Option.some.inj hyb
    cases hcorr with
    | overflow he hn => exact ⟨_, hattempt, .overflow he hn⟩
    | error he hbytes =>
      cases hr
      -- wherever the two were when they failed, both come back
      exact ⟨_, hattempt, .error he ⟨hbytes, hposition.trans h.position_eq,
        hkept.capacity_eq.trans h.capacity_eq, hkept.holds⟩⟩

theorem Simulates.transaction (hx : Simulates l n (Somewhere l) x y)
    (hy : Keeps (fun t => t.Serves l) y) :
    Simulates l n (Somewhere l) (transaction x) (transaction y) := by
  intro c s h r hr
  have hr : x c = some r := hr
  unfold Action.transaction
  by_cases htrying : Input.isTrying s.input = true
  · rw [if_pos htrying]
    exact hx c s h r hr
  · rw [if_neg htrying]
    -- over a cursor the same attempt has the result of what is tried
    have hattempt := hx.attempt hy c s h
    rw [attempt_cursor, hr] at hattempt
    rcases r with ⟨e | a, c₁⟩
    · obtain ⟨r', hyr, hcorr⟩ := hattempt _ rfl
      refine ⟨r', hyr, ?_⟩
      cases hcorr with
      | overflow he hn => exact .overflow he hn
      | error he h₁ => exact .error he h₁.bytes_eq
    · obtain ⟨r', hyr, hcorr⟩ := hattempt _ rfl
      exact ⟨r', hyr, hcorr.somewhere⟩

theorem Simulates.orElse {x' : Action Cursor ν α} {y' : Action (Stream σ) ν α}
    (hx : Simulates l n (Somewhere l) x y) (hy : Keeps (fun t => t.Serves l) y)
    (hx' : Simulates l n (Somewhere l) x' y') :
    Simulates l n (Somewhere l) (orElse x x') (orElse y y') := by
  intro c s h r hr
  have hattempt := hx.attempt hy c s h
  unfold Action.orElse at hr ⊢
  rcases hxc : Action.attempt x c with _ | ⟨e | a, c₁⟩ <;> rw [hxc] at hr
  · cases hr
  · obtain ⟨r', hyr, hcorr⟩ := hattempt _ hxc
    rw [hyr]
    simp only at hr
    cases hcorr with
    | overflow he hn =>
      simp only [he.not_isRecoverable, Bool.false_eq_true, if_false]
      exact ⟨_, rfl, .overflow he hn⟩
    | error he h₁ =>
      simp only [← he.1]
      by_cases hrec : e.isRecoverable = true
      · rw [if_pos hrec] at hr ⊢
        exact hx' c₁ _ h₁ r hr
      · rw [if_neg hrec] at hr ⊢
        cases hr
        exact ⟨_, rfl, .error he h₁.bytes_eq⟩
  · obtain ⟨r', hyr, hcorr⟩ := hattempt _ hxc
    rw [hyr]
    cases hr
    cases hcorr with
    | overflow he hn =>
      simp only [he.not_isRecoverable, Bool.false_eq_true, if_false]
      exact ⟨_, rfl, .overflow he hn⟩
    | ok h₁ => exact ⟨_, rfl, .ok h₁⟩

theorem Simulates.many (hx : Simulates l n (Somewhere l) x y)
    (hy : Keeps (fun t => t.Serves l) y) (most : Option Nat) (k : Nat) :
    Simulates l n (Somewhere l) (many x most k) (many y most k) := by
  induction k generalizing most with
  | zero =>
    intro c s h r hr
    cases hr
  | succ k ih =>
    intro c s h r hr
    have hattempt := hx.attempt hy c s h
    unfold Action.many at hr ⊢
    by_cases hmost : most = some 0
    · rw [if_pos hmost] at hr ⊢
      cases hr
      exact ⟨_, rfl, .ok h⟩
    · rw [if_neg hmost] at hr ⊢
      rcases hxc : Action.attempt x c with _ | ⟨e | a, c₁⟩ <;> rw [hxc] at hr
      · cases hr
      · obtain ⟨r', hyr, hcorr⟩ := hattempt _ hxc
        rw [hyr]
        simp only at hr
        cases hcorr with
        | overflow he hn =>
          simp only [he.not_isRecoverable, Bool.false_eq_true, if_false]
          exact ⟨_, rfl, .overflow he hn⟩
        | error he h₁ =>
          simp only [← he.1]
          by_cases hrec : e.isRecoverable = true
          · rw [if_pos hrec] at hr ⊢
            cases hr
            exact ⟨_, rfl, .ok h₁⟩
          · rw [if_neg hrec] at hr ⊢
            cases hr
            exact ⟨_, rfl, .error he h₁.bytes_eq⟩
      · obtain ⟨r', hyr, hcorr⟩ := hattempt _ hxc
        rw [hyr]
        simp only at hr
        cases hcorr with
        | overflow he hn =>
          simp only [he.not_isRecoverable, Bool.false_eq_true, if_false]
          exact ⟨_, rfl, .overflow he hn⟩
        | @ok a c₁ s₁ h₁ =>
          -- an item that reads nothing ends the repetition over both
          have hplaces : Input.position s₁.input = Input.position s.input ↔
              Input.position c₁.input = Input.position c.input := by
            show s₁.input.position = s.input.position ↔ c₁.input.position = c.input.position
            rw [h₁.position_eq, h.position_eq]
          simp only [hplaces]
          by_cases hstill : Input.position c₁.input = Input.position c.input
          · rw [if_pos hstill] at hr ⊢
            cases hr
            exact ⟨_, rfl, .ok h₁⟩
          · rw [if_neg hstill] at hr ⊢
            have hrest := (ih (most.map (· - 1))).bind fun rest => simulates_pure (a :: rest)
            exact hrest c₁ s₁ h₁ r hr

/-- Remarks tell the places, but change nothing. -/
theorem Simulates.remark (hx : Simulates l n (Somewhere l) x y) (tell : Moment → Nat → List ν) :
    Simulates l n (Somewhere l) (remark tell x) (remark tell y) := by
  intro c s h r hr
  have hentered : Sim l n
      { c with journal := (tell .entry (Input.position c.input)).reverse ++ c.journal }
      (entered tell s) := ⟨h.bytes_eq, h.position_eq, h.capacity_eq, h.serves⟩
  have hpart := hx _ _ hentered
  unfold Action.remark at hr ⊢
  simp only at hr ⊢
  rcases hxc : x { c with journal := (tell .entry (Input.position c.input)).reverse ++ c.journal }
    with _ | ⟨e | a, c₁⟩ <;> rw [hxc] at hr
  · cases hr
  · obtain ⟨r', hyr, hcorr⟩ := hpart _ hxc
    unfold entered at hyr
    rw [hyr]
    cases hr
    cases hcorr with
    | overflow he hn => exact ⟨_, rfl, .overflow he hn⟩
    | error he h₁ => exact ⟨_, rfl, .error he h₁⟩
  · obtain ⟨r', hyr, hcorr⟩ := hpart _ hxc
    unfold entered at hyr
    rw [hyr]
    cases hr
    cases hcorr with
    | overflow he hn => exact ⟨_, rfl, .overflow he hn⟩
    | ok h₁ => exact ⟨_, rfl, .ok ⟨h₁.bytes_eq, h₁.position_eq, h₁.capacity_eq, h₁.serves⟩⟩

end Action

/-! ### Grammars -/

namespace Grammar

open Session StreamParser.Action

variable {ρ υ : Type} {l : List UInt8} {n : Nat}

/-- A plain grammar goes the same way over a cursor and over a stream, if its rules do. -/
theorem simulates_action {rules : ρ → Action Cursor ν υ} {rules' : ρ → Action (Stream σ) ν υ}
    (hr : ∀ r, Simulates l n (Somewhere l) (rules r) (rules' r))
    (hk : ∀ r, Keeps (fun t => t.Serves l) (rules' r)) (bound : Nat) {α : Type}
    (g : Grammar ρ υ ν α) (hg : g.IsPlain Pattern.Streamable) :
    Simulates l n (Somewhere l) (action rules bound g) (action rules' bound g) := by
  have hkeeps : ∀ {α : Type} (g : Grammar ρ υ ν α), g.IsPlain Pattern.Streamable →
      Keeps (fun t => t.Serves l) (action rules' bound g) :=
    fun g hg => keeps_action (Tokenizer.stable_serves l) hk bound g hg
  induction g with
  | pattern p =>
    cases p with
    | ok p => exact simulates_matchPattern hg
    | error e => exact simulates_fail _
  | succeed a => exact simulates_pure a
  | fail e => exact simulates_fail e
  | bind g next ihg ihnext => exact (ihg hg.1).bind fun a => ihnext a (hg.2 a)
  | transaction g ih => exact (ih hg).transaction (hkeeps g hg)
  | attempt g ih =>
    intro c s h r hx
    obtain ⟨r', hy, hcorr⟩ := (ih hg).attempt (hkeeps g hg) c s h r hx
    exact ⟨r', hy, hcorr.somewhere⟩
  | orElse g h ihg ihh => exact (ihg hg.1).orElse (hkeeps g hg.1) (ihh hg.2)
  | label m g ih => exact (ih hg).label m
  | commit g ih => exact hg.elim
  | letGo g ih => exact hg.elim
  | rule r => exact hr r
  | times k g ih => exact (ih hg).times k
  | many most g ih => exact (ih hg).many (hkeeps g hg) most bound
  | remark tell g ih => exact (ih hg).remark tell

theorem simulates_ruleAction {rules : ρ → Grammar ρ υ ν υ}
    (hr : ∀ r, (rules r).IsPlain Pattern.Streamable) (bound k : Nat) (r : ρ) :
    Simulates l n (Somewhere l) (ruleAction rules bound k r : Action Cursor ν υ)
      (ruleAction rules bound k r : Action (Stream σ) ν υ) := by
  induction k generalizing r with
  | zero =>
    intro c s h result hrun
    cases hrun
  | succ k ih =>
    exact simulates_action ih (keeps_ruleAction (Tokenizer.stable_serves l) hr bound k) bound
      (rules r) (hr r)

/-- Patterns that a stream can be read with: those without assertions, and the one that matches only
the end of the input. -/
def IsStreamed (p : Pattern) : Prop := p.IsLookFree ∨ p.expr = .look .textEnd

theorem IsPlain.mono {P Q : Pattern → Prop} (hPQ : ∀ p, P p → Q p) {α : Type}
    {g : Grammar ρ υ ν α} (hg : g.IsPlain P) : g.IsPlain Q := by
  induction g with
  | pattern p =>
    cases p with
    | ok p => exact hPQ p hg
    | error e => trivial
  | succeed a => trivial
  | fail e => trivial
  | bind g next ihg ihnext => exact ⟨ihg hg.1, fun a => ihnext a (hg.2 a)⟩
  | transaction g ih => exact ih hg
  | attempt g ih => exact ih hg
  | orElse g h ihg ihh => exact ⟨ihg hg.1, ihh hg.2⟩
  | label m g ih => exact ih hg
  | commit g ih => exact hg
  | letGo g ih => exact hg
  | rule r => trivial
  | times k g ih => exact ih hg
  | many most g ih => exact ih hg
  | remark tell g ih => exact ih hg

theorem streamable_of_isStreamed {p : Pattern} (hp : IsStreamed p) : p.Streamable :=
  hp.elim Pattern.IsLookFree.streamable Pattern.streamable_of_textEnd

/-- **Streams read like cursors.**  Let a plain grammar be run over a cursor on a text, and let the
run answer.  Then so does the run over a fresh stream whose source delivers that text, however it
cuts it; and either the window, which is then no longer than the text, overflows, or the answers
agree: the same output at the same place, or two errors from which there is recovery or not
alike. -/
theorem run_stream_agrees {rules : ρ → Grammar ρ υ ν υ} (hr : ∀ r, (rules r).IsPlain IsStreamed)
    {α : Type} {g : Grammar ρ υ ν α} (hg : g.IsPlain IsStreamed) (bound : Nat) (text : String)
    {source : σ} (hs : Delivers source (Utf8.bytes text)) {t : Tokenizer σ} (ht : t.Fresh source)
    {journal : List ν} {r : Except ParseError α} {c : Session Cursor ν}
    (hrun : run rules bound g ⟨Cursor.start text, journal⟩ = some (r, c)) :
    ∃ r' s, run rules bound g ⟨Stream.start t, journal⟩ = some (r', s) ∧
      ((∃ e, r' = .error e ∧ e.IsOverflow ∧
          t.window.capacity ≤ (Utf8.bytes text).length) ∨
        (∃ a, r = .ok a ∧ r' = .ok a ∧ s.input.position = c.input.position) ∨
        ∃ e e', r = .error e ∧ r' = .error e' ∧ e.Alike e') := by
  have hplain : ∀ r, (rules r).IsPlain Pattern.Streamable :=
    fun r => (hr r).mono fun _ => streamable_of_isStreamed
  have hserves := ht.serves hs
  have hposition : t.position = 0 := by
    unfold Tokenizer.position
    rw [ht.window_eq]
    rfl
  have hsim : Sim (Utf8.bytes text) t.window.capacity
      (⟨Cursor.start text, journal⟩ : Session Cursor ν) ⟨Stream.start t, journal⟩ :=
    ⟨rfl, hposition, rfl, hserves⟩
  have hrules := keeps_ruleAction (σ := σ) (Tokenizer.stable_serves (Utf8.bytes text)) hplain bound
    bound
  obtain ⟨⟨r', s⟩, hstream, hcorr⟩ := simulates_action (simulates_ruleAction hplain bound bound)
    hrules bound g (hg.mono fun _ => streamable_of_isStreamed) _ _ hsim _ hrun
  refine ⟨r', s, hstream, ?_⟩
  cases hcorr with
  | overflow he hle => exact .inl ⟨_, rfl, he, hle⟩
  | ok h => exact .inr (.inl ⟨_, rfl, rfl, h.position_eq⟩)
  | error he h => exact .inr (.inr ⟨_, _, rfl, rfl, he⟩)

/-- The letter `a` before `b`, or else before `c`, and then the end of the input. -/
def choice : Grammar Empty Unit Empty String :=
  ((letter 'a').skip (letter 'b')).orElse ((letter 'a').skipLeft (letter 'c')) |>.skip endOfInput
where
  letter (c : Char) : Grammar Empty Unit Empty String :=
    pattern (.ok ⟨String.singleton c, .chars (.single c)⟩)

/-- A tokenizer that gets the letters one by one. -/
def trickling : Tokenizer Script :=
  ⟨⟨Utf8.bytes "ac", [.hand 0], some 1⟩, .empty 4, .uninitialized, false, .empty 1, none, []⟩

/-- The first letter is read, given back and read again. -/
theorem choice_over_stream :
    choice.IsPlain IsStreamed ∧ Delivers trickling.source (Utf8.bytes "ac") ∧
      ∃ s, run Empty.elim 3 choice ⟨Stream.start trickling, []⟩ = some (.ok "c", s) ∧
        s.input.position = 2 := by
  have hletter : ∀ c, IsStreamed ⟨String.singleton c, .chars (.single c)⟩ := fun _ => .inl rfl
  have hend : (endOfInput : Grammar Empty Unit Empty Unit).IsPlain IsStreamed :=
    ⟨.inr rfl, fun _ => trivial⟩
  have hplain : choice.IsPlain IsStreamed :=
    ⟨⟨⟨hletter 'a', fun _ => ⟨hletter 'b', fun _ => trivial⟩⟩, hletter 'a', fun _ => hletter 'c'⟩,
      fun _ => ⟨hend, fun _ => trivial⟩⟩
  have hs : Delivers trickling.source (Utf8.bytes "ac") := Script.delivers (by simp [trickling])
  have ht : trickling.Fresh trickling.source := .inr ⟨⟨4, 1, none⟩, rfl⟩
  have hcursor : (run Empty.elim 3 choice ⟨Cursor.start "ac", []⟩).map
      (fun x => (x.1, x.2.input.position)) = some (.ok "c", 2) := by decide +kernel
  obtain ⟨⟨r, c⟩, hrun, hresult⟩ := Option.map_eq_some_iff.1 hcursor
  obtain ⟨hr, hposition⟩ := Prod.mk.inj hresult
  obtain rfl : r = .ok "c" := hr
  obtain ⟨r', s, hstream, ⟨e, -, -, hle⟩ | ⟨a, ha, rfl, hplace⟩ | ⟨e, e', he, -⟩⟩ :=
    run_stream_agrees (fun r => r.elim) hplain 3 "ac" hs ht hrun
  · exact absurd hle (by decide)
  · cases ha
    exact ⟨hplain, hs, s, hstream, hplace.trans hposition⟩
  · cases he

end Grammar

end StreamParser
