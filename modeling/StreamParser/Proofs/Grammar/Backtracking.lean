import StreamParser.Proofs.Grammar.Trying
import StreamParser.Proofs.Tokenizer.Repeat

/-!
# Backtracking leaves no trace

A first alternative that fails may have read far ahead.  When the second is read, the stream is back
at its place, but the window has other bytes, and other bytes were given up.  The second alternative
is read as if the first had not been tried.

* `Session.Level I s u` relates two streams at the same place of what they read, with trials open and
  marks held at the same places.  `I` is a property of tokenizers that determines their answers.
* `Grammar.coupled_level` says that any grammar, with commits or without, is read alike from level
  streams.
* `Grammar.backtracking_leaves_no_trace` puts this together with what is known of attempts that fail.
-/

namespace StreamParser

variable {σ ν : Type}

/-- The two streams have the property `I`.  They are at the same place, have marks at the same places,
and have as many trials open. -/
structure Session.Level (I : Tokenizer σ → Prop) (s u : Session (Stream σ) ν) : Prop where
  holds : I s.input.tokenizer
  holds' : I u.input.tokenizer
  level : Tokenizer.Level s.input.tokenizer u.input.tokenizer
  trials_eq : u.input.trials = s.input.trials

/-- The two streams are at the same place and hold the same marks. -/
def Session.Meet (s u : Session (Stream σ) ν) : Prop :=
  s.input.position = u.input.position ∧
    s.input.tokenizer.window.marks = u.input.tokenizer.window.marks

namespace Action

open Session

variable [Source σ] {α : Type} {I : Tokenizer σ → Prop} {P : Pattern → Prop}
  {x : Action (Stream σ) ν α} {s s₁ u u₁ : Session (Stream σ) ν}

theorem level_begun (hI : Tokenizer.Lasting I P) (h : Level I s u) : Level I (begun s) (begun u) where
  holds := hI.mark _ h.holds
  holds' := hI.mark _ h.holds'
  level := by
    have hoffset : u.input.begin.1.offset = s.input.begin.1.offset := h.level.position_eq
    refine ⟨h.level.position_eq, h.level.capacity_eq, ?_⟩
    show (u.input.tokenizer.window.marks ++ [u.input.begin.1]).map Mark.offset =
      (s.input.tokenizer.window.marks ++ [s.input.begin.1]).map Mark.offset
    simp [h.level.offsets_eq, hoffset]
  trials_eq := congrArg (· + 1) h.trials_eq

theorem level_commit (hI : Tokenizer.Lasting I P) (h : Level I s u) :
    Level I { s with input := Input.commit s.input } { u with input := Input.commit u.input } where
  holds := hI.commit _ h.holds
  holds' := hI.commit _ h.holds'
  level := by
    have hs : (Input.commit s.input).tokenizer.window = s.input.tokenizer.window.forget :=
      Tokenizer.window_commit s.input.tokenizer
    have hu : (Input.commit u.input).tokenizer.window = u.input.tokenizer.window.forget :=
      Tokenizer.window_commit u.input.tokenizer
    refine ⟨?_, ?_, ?_⟩
    · unfold Tokenizer.position
      rw [hs, hu]
      exact h.level.position_eq
    · rw [hs, hu]
      exact h.level.capacity_eq
    · rw [hs, hu]
      rfl
  trials_eq := h.trials_eq

omit [Source σ] in
/-- Streams that have settled alike, at the same place, are level as before. -/
theorem level_of_settled {b : Bool} (h : Level I s u)
    (hs : Stream.Settled I b s.input s₁.input) (hu : Stream.Settled I b u.input u₁.input)
    (hposition : u₁.input.position = s₁.input.position) : Level I s₁ u₁ where
  holds := hs.holds
  holds' := hu.holds
  level := by
    refine ⟨hposition, ?_, ?_⟩
    · rw [hs.capacity_eq, hu.capacity_eq, h.level.capacity_eq]
    · rw [hs.marks_eq, hu.marks_eq]
      cases b with
      | true => rfl
      | false => exact h.level.offsets_eq
  trials_eq := by rw [hs.trials_eq, hu.trials_eq, h.trials_eq]

omit [Source σ] in
/-- Of two trials that end in level streams, both have committed or none has: a trial that has not
holds its mark. -/
theorem committed_eq {b b' : Bool} (hs : Stream.Settled I b (begun s).input s₁.input)
    (hu : Stream.Settled I b' (begun u).input u₁.input) (h : Level I s₁ u₁) : b' = b := by
  have hmark : ∀ v : Session (Stream σ) ν, 0 < (begun v).input.tokenizer.window.marks.length := by
    intro v
    show 0 < (v.input.tokenizer.window.marks ++ [v.input.begin.1]).length
    simp
  have hlength := congrArg List.length h.level.offsets_eq
  rw [List.length_map, List.length_map, hs.marks_eq, hu.marks_eq] at hlength
  cases b with
  | true =>
    cases b' with
    | true => rfl
    | false => exact absurd hlength (Nat.ne_of_gt (hmark u))
  | false =>
    cases b' with
    | true => exact absurd hlength (Nat.ne_of_lt (hmark s))
    | false => rfl

/-- However the part ends, the stream has settled. -/
def Settling (I : Tokenizer σ → Prop) (x : Action (Stream σ) ν α) : Prop :=
  ∀ s r s', I s.input.tokenizer → x s = some (r, s') → ∃ b, Stream.Settled I b s.input s'.input

theorem level_matchPattern (hI : Tokenizer.Determined I P) {p : Pattern} (hp : P p) :
    Coupled (Level I) (Level I) (matchPattern p : Action (Stream σ) ν String) (matchPattern p) := by
  intro s u h
  obtain ⟨hresult, hposition⟩ := hI.rawNext_eq h.holds h.holds' h.level hp
  have hstable := (hI.upheld.lasting P).toStable
  have hs := Stream.kept_matchPattern hstable h.holds hp
  have hu := Stream.kept_matchPattern hstable h.holds' hp
  rw [← Stream.tokenizer_matchPattern, ← Stream.tokenizer_matchPattern] at hposition
  show Both _ _ (some ((s.input.matchPattern p).1, _)) (some ((u.input.matchPattern p).1, _))
  rw [Stream.matchPattern_congr hresult]
  exact both_some _ (level_of_settled h (Stream.settled_false_iff.2 hs)
    (Stream.settled_false_iff.2 hu) hposition)

/-- Attempts end alike, whether what they try commits or not. -/
theorem level_attempt (hI : Tokenizer.Lasting I P) (hx : Coupled (Level I) (Level I) x x)
    (hsettles : Settling I x) : Coupled (Level I) (Level I) (attempt x) (attempt x) := by
  intro s u h
  have hbegun := level_begun hI h
  have hboth := hx _ _ hbegun
  rcases hxs : x (begun s) with _ | ⟨r, s₁⟩ <;> rw [hxs] at hboth
  · rw [attempt_of_none hxs, attempt_of_none hboth.of_none]
    exact .none
  · obtain ⟨u₁, hxu, h₁⟩ := hboth.of_some
    obtain ⟨b, hs⟩ := hsettles _ _ _ hbegun.holds hxs
    obtain ⟨b', hu⟩ := hsettles _ _ _ hbegun.holds' hxu
    obtain rfl : b' = b := committed_eq hs hu h₁
    obtain ⟨r₂, s₂, hattempt, hsettled, hends⟩ := attempt_ends hI.toStable h.holds hxs hs
    obtain ⟨r₃, u₂, hattempt', hsettled', hends'⟩ := attempt_ends hI.toStable h.holds' hxu hu
    have hplace : u.input.position = s.input.position := h.level.position_eq
    have hplace₁ : u₁.input.position = s₁.input.position := h₁.level.position_eq
    rw [hplace, hplace₁] at hends'
    obtain ⟨rfl, hposition⟩ := hends.unique hends'
    rw [hattempt, hattempt']
    exact both_some _ (level_of_settled h hsettled hsettled' hposition)

theorem level_transaction (hI : Tokenizer.Lasting I P) (hx : Coupled (Level I) (Level I) x x)
    (hsettles : Settling I x) : Coupled (Level I) (Level I) (transaction x) (transaction x) := by
  intro s u h
  have htrying : Input.isTrying u.input = Input.isTrying s.input := by
    show decide (0 < u.input.trials) = decide (0 < s.input.trials)
    rw [h.trials_eq]
  unfold Action.transaction
  rw [htrying]
  by_cases hopen : Input.isTrying s.input = true
  · rw [if_pos hopen, if_pos hopen]
    exact hx s u h
  · rw [if_neg hopen, if_neg hopen]
    exact level_attempt hI hx hsettles s u h

theorem level_letGo (hI : Tokenizer.Lasting I P) (hx : Coupled (Level I) (Level I) x x) :
    Coupled (Level I) (Level I) (letGo x) (letGo x) :=
  fun _ _ h => hx _ _ (level_commit hI h)

/-- The place of a commit, which its error tells, is the same. -/
theorem level_committed (hI : Tokenizer.Lasting I P) (hx : Coupled (Level I) (Level I) x x) :
    Coupled (Level I) (Level I) (commit x) (commit x) := by
  intro s u h
  have hplace : Input.position u.input = Input.position s.input := h.level.position_eq
  unfold Action.commit
  rw [hplace]
  exact (level_letGo hI hx).mapError _ s u h

end Action

/-! ### Grammars -/

namespace Grammar

open Session StreamParser.Action

variable [Source σ] {ρ υ : Type} {I : Tokenizer σ → Prop} {P : Pattern → Prop}

/-- The run of a grammar settles, since that of its program does. -/
theorem settling_action (hI : Tokenizer.Lasting I fun _ => True) (rules : ρ → Grammar ρ υ ν υ)
    (bound n : Nat) {α : Type} (g : Grammar ρ υ ν α) :
    Settling I (action (ruleAction rules bound n) bound g : Action (Stream σ) ν α) := by
  intro s r s' hs h
  let x := Program.ofGrammar (Program.ofRule rules bound n) bound g
  have hrun : x.run = (action (ruleAction rules bound n) bound g : Action (Stream σ) ν α) :=
    Program.run_ofGrammar (Program.run_ofRule rules bound n) bound g
  rw [← hrun] at h
  exact ⟨_, Program.settled_run hI x (Program.uses_of_forall (fun _ => trivial) x) hs h⟩

/-- A grammar is read alike from level streams, if its rules are. -/
theorem coupled_level (hI : Tokenizer.Determined I P) {rules : ρ → Grammar ρ υ ν υ}
    {bound n : Nat} (hr : ∀ r, Coupled (Level I) (Level I)
      (ruleAction rules bound n r : Action (Stream σ) ν υ) (ruleAction rules bound n r))
    {α : Type} {g : Grammar ρ υ ν α} (hg : g.Uses P) :
    Coupled (Level I) (Level I) (action (ruleAction rules bound n) bound g : Action (Stream σ) ν α)
      (action (ruleAction rules bound n) bound g) := by
  have hlasting := hI.upheld.lasting fun _ => True
  have hattempt : ∀ {α : Type} {g : Grammar ρ υ ν α},
      Coupled (Level I) (Level I)
        (action (ruleAction rules bound n) bound g : Action (Stream σ) ν α)
        (action (ruleAction rules bound n) bound g) →
      Coupled (Level I) (Level I)
        (Action.attempt (action (ruleAction rules bound n) bound g : Action (Stream σ) ν α))
        (Action.attempt (action (ruleAction rules bound n) bound g)) :=
    fun hx => level_attempt hlasting hx (settling_action hlasting rules bound n _)
  induction g with
  | pattern p =>
    cases p with
    | ok p => exact level_matchPattern hI hg
    | error e => exact coupled_fail (fun _ _ h => h) _
  | succeed a => exact coupled_pure a
  | fail e => exact coupled_fail (fun _ _ h => h) e
  | bind g next ihg ihnext => exact (ihg hg.1).bind fun a => ihnext a (hg.2 a)
  | transaction g ih =>
    exact level_transaction hlasting (ih hg) (settling_action hlasting rules bound n g)
  | attempt g ih => exact hattempt (ih hg)
  | orElse g h ihg ihh => exact (hattempt (ihg hg.1)).orElse (ihh hg.2) fun _ _ h => h
  | label m g ih => exact (ih hg).mapError _
  | commit g ih => exact level_committed hlasting (ih hg)
  | letGo g ih => exact level_letGo hlasting (ih hg)
  | rule r => exact hr r
  | times k g ih => exact (ih hg).times k
  | many most g ih =>
    exact (hattempt (ih hg)).many (fun _ _ h => h) (fun _ _ h => h.level.position_eq) most bound
  | remark tell g ih =>
    exact (ih hg).remark tell (fun _ _ _ _ h => ⟨h.holds, h.holds', h.level, h.trials_eq⟩)
      fun _ _ _ _ h => ⟨h.holds, h.holds', h.level, h.trials_eq⟩

theorem coupled_level_rule (hI : Tokenizer.Determined I P) {rules : ρ → Grammar ρ υ ν υ}
    (hr : ∀ r, (rules r).Uses P) (bound n : Nat) (r : ρ) :
    Coupled (Level I) (Level I) (ruleAction rules bound n r : Action (Stream σ) ν υ)
      (ruleAction rules bound n r) := by
  induction n generalizing r with
  | zero =>
    intro s u h
    exact .none
  | succ n ih => exact coupled_level hI ih (hr r)

/-- **A grammar that is read again.**  From a stream that has come back to its place and its marks, a
grammar is read as before, and it leaves the same marks. -/
theorem both_of_level (hI : Tokenizer.Determined I P) {rules : ρ → Grammar ρ υ ν υ}
    (hr : ∀ r, (rules r).Uses P) (bound : Nat) {α : Type} {g : Grammar ρ υ ν α} (hg : g.Uses P)
    {s u : Session (Stream σ) ν} (h : Level I s u)
    (hmarks : s.input.tokenizer.window.marks = u.input.tokenizer.window.marks) :
    Both Meet Meet (run rules bound g s) (run rules bound g u) := by
  have hlasting := hI.upheld.lasting fun _ => True
  have hsettles := settling_action hlasting rules bound bound g
  have hboth := coupled_level hI (coupled_level_rule hI hr bound bound) hg s u h
  have hafter : ∀ (r : Except ParseError α) (s₁ u₁ : Session (Stream σ) ν),
      run rules bound g s = some (r, s₁) → run rules bound g u = some (r, u₁) → Level I s₁ u₁ →
        Meet s₁ u₁ := by
    intro r s₁ u₁ h₁ h₂ hlevel
    obtain ⟨b, hs⟩ := hsettles s r s₁ h.holds h₁
    obtain ⟨b', hu⟩ := hsettles u r u₁ h.holds' h₂
    have hlength := congrArg List.length hlevel.level.offsets_eq
    rw [List.length_map, List.length_map] at hlength
    refine ⟨hlevel.level.position_eq.symm, ?_⟩
    rw [hs.marks_eq, hu.marks_eq, hmarks] at hlength ⊢
    -- if only one has committed, no marks were held
    cases b with
    | true =>
      cases b' with
      | true => rfl
      | false => exact (List.length_eq_zero_iff.1 hlength).symm
    | false =>
      cases b' with
      | true => exact List.length_eq_zero_iff.1 hlength.symm
      | false => rfl
  exact hboth.imp (fun _ => hafter _) fun _ => hafter _

/-- An attempt of a combined grammar that fails leaves a stream that is level with the one before. -/
theorem level_of_attempt (hI : Tokenizer.Determined I P) {rules : ρ → Grammar ρ υ ν υ} {α : Type}
    {g : Grammar ρ υ ν α} (hg : IsCombinedWith rules g) (bound : Nat)
    {s s₁ : Session (Stream σ) ν} (hs : I s.input.tokenizer) {e : ParseError}
    (h : Action.attempt (run rules bound g) s = some (.error e, s₁)) :
    Level I s₁ s ∧ s₁.input.tokenizer.window.marks = s.input.tokenizer.window.marks := by
  have hlasting := hI.upheld.lasting fun _ => True
  obtain ⟨rules', hr, heq⟩ := hg.exists_rules (ω := Stream σ)
  have hplain : ∀ r, (rules' r).IsPlain fun _ => True := fun r => (hr r).isPlain
  have hkeeps : Keeps I (run rules' bound g : Action (Stream σ) ν α) :=
    keeps_run hlasting.toStable hplain bound hg.choose_spec.1.isPlain
  rw [heq bound] at h
  rcases attempt_cases hlasting.toStable hkeeps hs with ⟨-, h'⟩ | ⟨a, s₂, s₃, -, h', -⟩ |
    ⟨e', s₂, s₃, -, h', hkept, hposition⟩ <;> rw [h] at h' <;> cases h'
  refine ⟨⟨hkept.holds, hs, ⟨hposition.symm, hkept.capacity_eq.symm, ?_⟩, hkept.trials_eq.symm⟩,
    hkept.marks_eq⟩
  rw [hkept.marks_eq]

/-- **Backtracking leaves no trace.**  Let a client do whatever it likes with a fresh tokenizer whose
source does not fail, be its stream finite or endless, and let any number of trials be open.  Let `p`
be made with the combinators of the library, without commits, and `q` be any grammar; patterns have no
assertions but that for the end of the input.

If `p` fails and there is recovery, then `p` or else `q` is read as `q` alone: with the same output or
the same error, up to the same place, and with the same marks in the end.  That `p` fails may be known
of `p` by itself, if no trial is open or a mark is held at the place of the tokenizer or before it, or
else of an attempt of `p`. -/
theorem backtracking_leaves_no_trace {source : σ} (hs : Unfailing source) {t : Tokenizer σ}
    (ht : t.Fresh source) (ops : List Operation) (trials : Nat) (journal : List ν)
    {rules : ρ → Grammar ρ υ ν υ} (hr : ∀ r, (rules r).Uses IsStreamed) {α : Type}
    {p q : Grammar ρ υ ν α} (hp : IsCombinedWith rules p) (hq : q.Uses IsStreamed) (bound : Nat) :
    let s : Session (Stream σ) ν := ⟨⟨t.after ops, trials⟩, journal⟩
    ((trials = 0 ∨ (∃ m ∈ (t.after ops).window.marks, m.offset ≤ (t.after ops).position)) ∧
          (∃ e s', run rules bound p s = some (.error e, s') ∧ e.isRecoverable = true) ∨
        ∃ e s', run rules bound (attempt p) s = some (.error e, s') ∧ e.isRecoverable = true) →
      Both Meet Meet (run rules bound (p.orElse q) s) (run rules bound q s) := by
  intro s hfails
  obtain ⟨I, hI, hholds⟩ := Tokenizer.exists_determined hs ht ops
  obtain ⟨e, s₁, hattempt, he⟩ : ∃ e s₁,
      Action.attempt (run rules bound p) s = some (.error e, s₁) ∧ e.isRecoverable = true := by
    rcases hfails with ⟨hplace, e, s', hrun, he⟩ | ⟨e, s', hrun, he⟩
    · obtain ⟨s₁, hattempt⟩ := attempt_of_failure hp bound (hI.upheld.ok hholds) hplace hrun he
      exact ⟨e, s₁, hattempt, he⟩
    · exact ⟨e, s', hrun, he⟩
  have horElse : run rules bound (p.orElse q) s = run rules bound q s₁ := by
    show Action.orElse (run rules bound p) (run rules bound q) s = _
    unfold Action.orElse
    rw [hattempt]
    exact if_pos he
  obtain ⟨hlevel, hmarks⟩ := level_of_attempt hI hp bound hholds hattempt
  rw [horElse]
  have hstreamed : ∀ {α : Type} {g : Grammar ρ υ ν α}, g.Uses IsStreamed →
      g.Uses Pattern.Streamable :=
    fun hg => hg.mono fun _ => streamable_of_isStreamed
  exact both_of_level hI (fun r => hstreamed (hr r)) bound (hstreamed hq) hlevel hmarks

/-- After the letter `a` no `b` follows, but the `a` can be read again. -/
theorem letterPair_leaves_no_trace :
    pair.Fresh pair.source ∧ Unfailing pair.source ∧ IsCombinedWith noRules letterPair ∧
      (single 'a').Uses IsStreamed ∧ ∃ s',
      run noRules 3 (letterPair.orElse (single 'a')) ⟨Stream.start pair, []⟩ =
          some (.ok "a", s') ∧
        s'.input.position = 1 ∧ s'.input.tokenizer.window.marks = [] := by
  have hcombined : IsCombinedWith noRules letterPair :=
    ⟨fun _ => False, (IsCombined.pattern _).skip (.pattern _),
      ⟨trivial, fun _ => ⟨trivial, fun _ => trivial⟩⟩, fun r => r.elim⟩
  have hunfailing : Unfailing pair.source := .inl ⟨_, pair_delivers⟩
  have hfirst : (run noRules 3 letterPair ⟨Stream.start pair, []⟩).map Prod.fst =
      some (.error (.token (.inputMismatch "b"))) := by decide +kernel
  have hsecond : (run noRules 3 (single 'a') ⟨Stream.start pair, []⟩).map
      (fun x => (x.1, x.2.input.position, x.2.input.tokenizer.window.marks)) =
        some (.ok "a", 1, []) := by decide +kernel
  obtain ⟨⟨r, s₁⟩, hrun, rfl⟩ := Option.map_eq_some_iff.1 hfirst
  obtain ⟨⟨r', u⟩, halone, hresult⟩ := Option.map_eq_some_iff.1 hsecond
  obtain ⟨hr, hplace⟩ := Prod.mk.inj hresult
  obtain ⟨hposition, hmarks⟩ := Prod.mk.inj hplace
  obtain rfl : r' = .ok "a" := hr
  have hboth := backtracking_leaves_no_trace hunfailing pair_fresh [] 0 [] (fun r => r.elim)
    hcombined (uses_single 'a') 3 (.inl ⟨.inl rfl, _, s₁, hrun, rfl⟩)
  have halone : run noRules 3 (single 'a') ⟨⟨pair.after [], 0⟩, []⟩ = some (.ok "a", u) := halone
  rw [halone] at hboth
  obtain ⟨s', hrun', hmeet⟩ := hboth.symm.of_ok
  exact ⟨pair_fresh, hunfailing, hcombined, uses_single 'a', s', hrun', hmeet.1.trans hposition,
    hmeet.2.trans hmarks⟩

/-- Past a commit no mark shelters what is read in a trial.  The first alternative by itself needs no
more than a window for two and fails at the third letter; when it is tried, its mark keeps the first
letters, and the window is full. -/
theorem unsheltered_failure_tells :
    (pastCommit narrow).input.tokenizer.Reachable ∧
      IsCombinedWith noRules (letterPair.skip (single 'x')) ∧ (single 'a').Uses IsStreamed ∧
      (run noRules 3 (letterPair.skip (single 'x')) (pastCommit narrow)).map Prod.fst =
        some (.error (.token (.inputMismatch "x"))) ∧
      (run noRules 3 (single 'a') (pastCommit narrow)).map Prod.fst = some (.ok "a") ∧
      (run noRules 3 ((letterPair.skip (single 'x')).orElse (single 'a'))
        (pastCommit narrow)).map Prod.fst = some (.error (.token (.windowFull 2 2))) := by
  have hnarrow : narrow.Reachable := .fresh (.inr ⟨⟨2, 1, none⟩, rfl⟩)
  have hcombined : IsCombined (letterPair.skip (single 'x')) :=
    ((IsCombined.pattern _).skip (.pattern _)).skip (.pattern _)
  have hcalls : (letterPair.skip (single 'x')).Calls fun _ => False :=
    ⟨⟨trivial, fun _ => ⟨trivial, fun _ => trivial⟩⟩, fun _ => ⟨trivial, fun _ => trivial⟩⟩
  refine ⟨.commit (.mark hnarrow), ⟨fun _ => False, hcombined, hcalls, fun r => r.elim⟩,
    uses_single 'a', ?_, ?_, ?_⟩
  · decide +kernel
  · decide +kernel
  · decide +kernel

end Grammar

end StreamParser
