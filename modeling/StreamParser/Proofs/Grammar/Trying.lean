import StreamParser.Proofs.Grammar.Guarded

/-!
# Failing by itself and failing in a trial

An alternative is tried: a mark is set before it, and its transactions set no marks of their own.  If
the same grammar is run by itself, the marks are others, and so the bytes that the window has to keep
may be others.  A failure from which there is recovery is the same in both runs.

* `Action.Even` says that the marks which two runs have beside a common shelter do not matter.
* `Stream.Covered s u` relates a stream with no trial open to a stream with a trial that has begun at
  the same place.  The run from `u` has to keep the bytes behind this place from its beginning, the
  run from `s` only when an attempt or a transaction begins; `Action.Recurs` says that it fails alike.
* `Grammar.attempt_of_failure`: an attempt of a combined grammar fails as the grammar does by itself.
-/

namespace StreamParser

variable {σ ν : Type}

/-! ### Marks beside a shelter -/

namespace Action

open Session

variable {α : Type} [Source σ] {x y : Action (Stream σ) ν α}

/-- From streams that are abreast and sheltered the part gives the same result. -/
def Even (x : Action (Stream σ) ν α) : Prop :=
  ∀ floor (s u : Session (Stream σ) ν), s.input.Abreast floor u.input → s.input.Sheltered floor →
    u.input.Sheltered floor →
      Both (fun s₁ u₁ => s₁.input.Abreast floor u₁.input)
        (fun s₁ u₁ => s₁.input.tokenizer.unplaced = u₁.input.tokenizer.unplaced) (x s) (x u)

omit [Source σ] in
/-- Both runs go along with that of the guarded part. -/
theorem even_of_coupled (h : ∀ floor, Coupled (InStep floor) Parted x y) : Even x := by
  intro floor s u hsu hs hu
  have hleft := h floor s u ⟨hsu, .inr hs⟩
  have hright := h floor u u ⟨hsu.symm.trans hsu, .inr hu⟩
  refine hleft.comp hright.symm ?_ ?_
  · intro s₁ v u₁ h₁ h₂
    exact h₁.1.trans h₂.1.symm
  · intro s₁ v u₁ h₁ h₂
    exact h₁.1.trans h₂.1.symm

end Action

/-! ### Below a trial -/

namespace Stream

/-- In `s` no trial is open.  In `u`, which has the same window at the same place, one is, and a mark
keeps the bytes from this place on, besides those that the marks of `s` keep. -/
structure Covered (s u : Stream σ) : Prop where
  ok : s.tokenizer.window.Ok
  ok' : u.tokenizer.window.Ok
  unplaced_eq : s.tokenizer.unplaced = u.tokenizer.unplaced
  position_eq : s.position = u.position
  trials_eq : s.trials = 0
  trials_pos : 0 < u.trials
  sheltered : u.Sheltered s.position
  oldest_eq : ∀ n, s.position ≤ n →
    oldest n u.tokenizer.window.marks = min (oldest n s.tokenizer.window.marks) s.position

variable {s s₁ u u₁ : Stream σ}

theorem covered_begin (h : s.tokenizer.window.Ok) (hs : s.trials = 0) : Covered s s.begin.2 where
  ok := h
  ok' := h.mark
  unplaced_eq := rfl
  position_eq := rfl
  trials_eq := hs
  trials_pos := Nat.succ_pos _
  sheltered := sheltered_begin s
  oldest_eq n _ := oldest_begin s n

/-- When a trial begins in the first, they are abreast. -/
theorem Covered.abreast (h : Covered s u) : Abreast s.position s.begin.2 u where
  ok := h.ok.mark
  ok' := h.ok'
  unplaced_eq := h.unplaced_eq
  position_eq := h.position_eq
  floor_le := Nat.le_refl _
  oldest_eq n hn := by rw [oldest_begin, h.oldest_eq n hn]

/-- At the place itself, the mark keeps nothing more. -/
theorem Covered.outline_eq (h : Covered s u) : s.tokenizer.outline = u.tokenizer.outline := by
  have hplace : s.tokenizer.position = u.tokenizer.position := h.position_eq
  have hle : oldest s.tokenizer.position s.tokenizer.window.marks ≤ s.tokenizer.position :=
    oldest_le_position _ _
  have holdest := h.oldest_eq s.tokenizer.position (Nat.le_refl _)
  have hposition : s.position = s.tokenizer.position := rfl
  refine Tokenizer.outline_eq h.unplaced_eq hplace h.ok h.ok' ?_
  rw [← hplace, holdest]
  omega

/-- Streams that come back to their marks and their place are covered as before. -/
theorem Covered.of_kept {I I' : Tokenizer σ → Prop} (h : Covered s u) (hs : Kept I s s₁)
    (hu : Kept I' u u₁) (ok : s₁.tokenizer.window.Ok) (ok' : u₁.tokenizer.window.Ok)
    (hunplaced : s₁.tokenizer.unplaced = u₁.tokenizer.unplaced)
    (hplace : s₁.position = s.position) (hplace' : u₁.position = u.position) : Covered s₁ u₁ where
  ok := ok
  ok' := ok'
  unplaced_eq := hunplaced
  position_eq := by rw [hplace, hplace', h.position_eq]
  trials_eq := hs.trials_eq.trans h.trials_eq
  trials_pos := by
    rw [hu.trials_eq]
    exact h.trials_pos
  sheltered := by
    rw [hplace]
    exact h.sheltered.of_kept hu
  oldest_eq n hn := by
    rw [hs.marks_eq, hu.marks_eq, hplace]
    exact h.oldest_eq n (hplace ▸ hn)

end Stream

namespace Action

open Session

variable {α β : Type} {x y : Action (Stream σ) ν α}

/-- If the part fails by itself and there is recovery, it fails alike below a trial. -/
def Recurs (x : Action (Stream σ) ν α) : Prop :=
  ∀ s u e s', s.input.Covered u.input → x s = some (.error e, s') → e.isRecoverable = true →
    ∃ u', x u = some (.error e, u')

theorem recurs_pure (a : α) : Recurs (pure a : Action (Stream σ) ν α) := by
  intro s u e s' h hx
  cases hx

theorem recurs_fail (e : ParseError) : Recurs (fail e : Action (Stream σ) ν α) := by
  intro s u e' s' h hx he
  cases hx
  exact ⟨u, rfl⟩

/-- A part that breaks is none to recover from. -/
theorem BreaksAt.recurs {p : Session (Stream σ) ν → Option Nat} (hx : BreaksAt p x) :
    Recurs x := by
  intro s u e s' h hxs he
  obtain ⟨-, hno⟩ := hx s e s' ⟨h.ok, h.trials_eq⟩ hxs
  rw [hno] at he
  cases he

/-- If what follows fails only by breaking, the recovery is from the first part. -/
theorem Recurs.bind (hx : Recurs x) (hk : KeepsOk x) {f : α → Action (Stream σ) ν β}
    (hf : ∀ a, ∃ p, BreaksAt p (f a)) : Recurs (bind x f) := by
  intro s u e s' h hxs he
  unfold Action.bind at hxs ⊢
  rcases h₁ : x s with _ | ⟨e₁ | a, s₁⟩ <;> rw [h₁] at hxs
  · cases hxs
  · cases hxs
    obtain ⟨u', hxu⟩ := hx s u e s' h h₁ he
    rw [hxu]
    exact ⟨u', rfl⟩
  · have htop : AtTop s₁ := hk.atTop ⟨h.ok, h.trials_eq⟩ h₁
    obtain ⟨p, hbreaks⟩ := hf a
    obtain ⟨-, hno⟩ := hbreaks s₁ e s' htop hxs
    rw [hno] at he
    cases he

theorem Recurs.mapError (hx : Recurs x) {f : ParseError → ParseError}
    (hf : ∀ e, (f e).isRecoverable = e.isRecoverable) : Recurs (mapError f x) := by
  intro s u e s' h hxs he
  unfold Action.mapError at hxs ⊢
  rcases h₁ : x s with _ | ⟨e₁ | a, s₁⟩ <;> rw [h₁] at hxs <;> cases hxs
  obtain ⟨u', hxu⟩ := hx s u e₁ s' h h₁ (by rwa [hf] at he)
  rw [hxu]
  exact ⟨u', rfl⟩

variable [Source σ]

theorem recurs_matchPattern (p : Pattern) :
    Recurs (matchPattern p : Action (Stream σ) ν String) := by
  intro s u e s' h hx he
  obtain ⟨hresult, -⟩ := Tokenizer.rawNext_congr h.outline_eq h.ok h.ok' p
  have hmatch := Stream.matchPattern_congr hresult
  obtain ⟨herror, -⟩ := Prod.mk.inj (Option.some.inj hx)
  have herror : (s.input.matchPattern p).1 = .error e := herror
  have hxu : matchPattern p u =
      some ((u.input.matchPattern p).1, { u with input := (u.input.matchPattern p).2 }) := rfl
  rw [← hmatch, herror] at hxu
  exact ⟨_, hxu⟩

/-- What fails in an attempt fails below a trial alike. -/
theorem Even.of_attempt (hx : Even x) (hk : KeepsOk x) {s u s' : Session (Stream σ) ν}
    {e : ParseError} (h : s.input.Covered u.input) (hxs : attempt x s = some (.error e, s')) :
    ∃ u', x u = some (.error e, u') := by
  have hboth := hx _ (begun s) u h.abreast (Stream.sheltered_begin s.input) h.sheltered
  rcases attempt_cases Tokenizer.stable_ok hk h.ok with ⟨-, h'⟩ | ⟨a, s₁, s₂, -, h', -⟩ |
    ⟨e₁, s₁, s₂, h₁, h', -⟩ <;> rw [hxs] at h' <;> cases h'
  rw [h₁] at hboth
  obtain ⟨u', hxu, -⟩ := hboth.of_error
  exact ⟨u', hxu⟩

theorem recurs_transaction (hx : Even x) (hk : KeepsOk x) : Recurs (transaction x) := by
  intro s u e s' h hxs he
  have hs : Input.isTrying s.input = false := decide_eq_false (by rw [h.trials_eq]; omega)
  have hu : Input.isTrying u.input = true := decide_eq_true h.trials_pos
  unfold Action.transaction at hxs ⊢
  rw [hs] at hxs
  rw [hu]
  exact hx.of_attempt hk h hxs

/-- Two attempts that fail are back where they began, one below the other. -/
theorem Even.attempt (hx : Even x) (hk : KeepsOk x) {s u s' : Session (Stream σ) ν}
    {e : ParseError} (h : s.input.Covered u.input) (hxs : attempt x s = some (.error e, s')) :
    ∃ u', Action.attempt x u = some (.error e, u') ∧ s'.input.Covered u'.input := by
  have hbegun := h.abreast.begin_right (Stream.sheltered_begin s.input)
  have hshelter : (begun u).input.Sheltered s.input.position := by
    obtain ⟨m, hm, hle⟩ := h.sheltered
    exact ⟨m, List.mem_append_left _ hm, hle⟩
  have hboth := hx _ (begun s) (begun u) hbegun (Stream.sheltered_begin s.input) hshelter
  rcases h₁ : x (begun s) with _ | ⟨e₁ | a, s₁⟩ <;> rw [h₁] at hboth
  · rw [attempt_of_none h₁] at hxs
    cases hxs
  · obtain ⟨u₁, hxu, hunplaced⟩ := hboth.of_error
    obtain ⟨s₂, hattempt, hs, hplace, hwindow⟩ := attempt_goes_back hk h.ok h₁
    obtain ⟨u', hattempt', hu, hplace', hwindow'⟩ := attempt_goes_back hk h.ok' hxu
    rw [hattempt] at hxs
    cases hxs
    refine ⟨u', hattempt', h.of_kept hs hu hs.holds hu.holds ?_ hplace hplace'⟩
    rw [hwindow, hwindow', hunplaced]
  · rw [attempt_of_ok h₁] at hxs
    cases hxs

theorem recurs_attempt (hx : Even x) (hk : KeepsOk x) : Recurs (Action.attempt x) := by
  intro s u e s' h hxs he
  obtain ⟨u', hxu, -⟩ := hx.attempt hk h hxs
  exact ⟨u', hxu⟩

theorem Recurs.orElse (hx : Even x) (hk : KeepsOk x) (hy : Recurs y) : Recurs (orElse x y) := by
  intro s u e s' h hxs he
  unfold Action.orElse at hxs ⊢
  rcases h₁ : Action.attempt x s with _ | ⟨e₁ | a, s₁⟩ <;> rw [h₁] at hxs
  · cases hxs
  · obtain ⟨u₁, hxu, hcovered⟩ := hx.attempt hk h h₁
    rw [hxu]
    simp only at hxs ⊢
    by_cases he₁ : e₁.isRecoverable = true
    · rw [if_pos he₁] at hxs ⊢
      exact hy s₁ u₁ e s' hcovered hxs he
    · rw [if_neg he₁] at hxs
      cases hxs
      exact absurd he he₁
  · cases hxs

theorem Recurs.remark (hx : Recurs x) (tell : Moment → Nat → List ν) : Recurs (remark tell x) := by
  intro s u e s' h hxs he
  unfold Action.remark at hxs ⊢
  simp only at hxs ⊢
  rcases h₁ : x (entered tell s) with _ | ⟨e₁ | a, s₁⟩ <;> unfold entered at h₁ <;>
    rw [h₁] at hxs <;> cases hxs
  obtain ⟨u', hxu⟩ := hx (entered tell s) (entered tell u) e s₁ h h₁ he
  unfold entered at hxu
  rw [hxu]
  exact ⟨_, rfl⟩

end Action

/-! ### Grammars -/

namespace Grammar

open StreamParser.Action

variable {ρ υ : Type}

section Recurs

variable [Source σ] {rules : ρ → Action (Stream σ) ν υ} {bound : Nat}

/-- A combined grammar recurs, if its rules do. -/
theorem recurs_action (hk : ∀ r, KeepsOk (rules r))
    (heven : ∀ {α : Type} {g : Grammar ρ υ ν α}, (g.IsPlain fun _ => True) →
      Even (action rules bound g))
    (hr : ∀ r, Recurs (rules r)) {α : Type} {g : Grammar ρ υ ν α} (hg : IsCombined g) :
    Recurs (action rules bound g) := by
  have hkeeps : ∀ {α : Type} {g : Grammar ρ υ ν α}, (g.IsPlain fun _ => True) →
      KeepsOk (action rules bound g) :=
    fun hg => keeps_action Tokenizer.stable_ok hk bound _ hg
  have htransaction : ∀ {α : Type} {g : Grammar ρ υ ν α}, (g.IsPlain fun _ => True) →
      Recurs (Action.transaction (action rules bound g)) :=
    fun hg => recurs_transaction (heven hg) (hkeeps hg)
  have hmany : ∀ {α β : Type} (f : List α → β) (most : Option Nat) {g : Grammar ρ υ ν α},
      IsCombined g → ∃ p, BreaksAt p (action rules bound ((many most g).map f)) :=
    fun f most _ hg =>
      ⟨breakingPoint rules (fun _ _ => none) bound _, breaksAt_map_many hk f most hg⟩
  induction hg with
  | pattern p =>
    cases p with
    | ok p => exact recurs_matchPattern p
    | error e => exact recurs_fail _
  | succeed a => exact recurs_pure a
  | fail e => exact recurs_fail e
  | rule r => exact hr r
  | map f hg ih => exact ih.bind (hkeeps hg.isPlain) fun a => ⟨fun _ => none, breaksAt_pure _ (f a)⟩
  | andThen hg hnext => exact htransaction ⟨hg.isPlain, fun a => (hnext a).isPlain⟩
  | orElse hg hh ihg ihh => exact ihh.orElse (heven hg.isPlain) (hkeeps hg.isPlain)
  | label m hg ih => exact ih.mapError fun e => rfl
  | zeroOrMore hg ih => exact (breaksAt_many (hkeeps hg.isPlain) none bound).recurs
  | @exactly α n g hg ih => exact htransaction (g := .times n g) hg.isPlain
  | @atLeast α n g hg ih =>
    exact (htransaction (g := .times n g) hg.isPlain).bind (hkeeps (hg.exactly n).isPlain)
      fun first => hmany _ none hg
  | @between α least most g h hg hb ih =>
    rw [eq_of_between hb]
    exact (htransaction (g := .times least g) hg.isPlain).bind (hkeeps (hg.exactly least).isPlain)
      fun first => hmany _ _ hg
  | separatedByOneOrMore hg hs ihg ihs =>
    have hkg := hkeeps hg.isPlain
    exact (recurs_attempt (heven hg.isPlain) hkg).bind (hkg.attempt Tokenizer.stable_ok)
      fun first => hmany _ none (hs.skipLeft hg)
  | separatedByZeroOrMore hg hs ihg ihs =>
    have hfirst := (hg.map some).isPlain
    have hone := (recurs_pure none).orElse (heven hfirst) (hkeeps hfirst)
    refine hone.bind (hkeeps hg.zeroOrOne.isPlain) fun first => ?_
    -- without a first item nothing is repeated
    cases first with
    | none => exact ⟨fun _ => none, breaksAt_pure _ []⟩
    | some first => exact hmany _ none (hs.skipLeft hg)
  | remark tell hg ih => exact ih.remark tell

end Recurs

/-! ### The rules that a grammar calls -/

/-- The rules that a grammar calls are in `S`. -/
def Calls (S : ρ → Prop) : {α : Type} → Grammar ρ υ ν α → Prop
  | _, pattern _ => True
  | _, succeed _ => True
  | _, fail _ => True
  | _, bind g next => g.Calls S ∧ ∀ a, (next a).Calls S
  | _, transaction g => g.Calls S
  | _, attempt g => g.Calls S
  | _, orElse g h => g.Calls S ∧ h.Calls S
  | _, label _ g => g.Calls S
  | _, commit g => g.Calls S
  | _, letGo g => g.Calls S
  | _, rule r => S r
  | _, times _ g => g.Calls S
  | _, many _ g => g.Calls S
  | _, remark _ g => g.Calls S

/-- A grammar that is made with the combinators of the library, without commits, as are the rules that
it calls, and those that they call, and so on. -/
def IsCombinedWith (rules : ρ → Grammar ρ υ ν υ) {α : Type} (g : Grammar ρ υ ν α) : Prop :=
  ∃ S : ρ → Prop, IsCombined g ∧ g.Calls S ∧ ∀ r, S r → IsCombined (rules r) ∧ (rules r).Calls S

section Calls

variable {ω : Type} [Input ω] {S : ρ → Prop}

/-- Other rules do not matter. -/
theorem action_congr {rules rules' : ρ → Action ω ν υ} (h : ∀ r, S r → rules r = rules' r)
    (bound : Nat) {α : Type} {g : Grammar ρ υ ν α} (hg : g.Calls S) :
    action rules bound g = action rules' bound g := by
  induction g with
  | pattern p =>
    cases p with
    | ok p => rfl
    | error e => rfl
  | succeed a => rfl
  | fail e => rfl
  | bind g next ihg ihnext =>
    have hnext : (fun a => action rules bound (next a)) = fun a => action rules' bound (next a) := by
      funext a
      exact ihnext a (hg.2 a)
    simp only [action, ihg hg.1, hnext]
  | transaction g ih => simp only [action, ih hg]
  | attempt g ih => simp only [action, ih hg]
  | orElse g h ihg ihh => simp only [action, ihg hg.1, ihh hg.2]
  | label m g ih => simp only [action, ih hg]
  | commit g ih => simp only [action, ih hg]
  | letGo g ih => simp only [action, ih hg]
  | rule r => exact h r hg
  | times n g ih => simp only [action, ih hg]
  | many most g ih => simp only [action, ih hg]
  | remark tell g ih => simp only [action, ih hg]

theorem ruleAction_congr {rules rules' : ρ → Grammar ρ υ ν υ} (h : ∀ r, S r → rules r = rules' r)
    (hS : ∀ r, S r → (rules r).Calls S) (bound n : Nat) (r : ρ) (hr : S r) :
    (ruleAction rules bound n r : Action ω ν υ) = ruleAction rules' bound n r := by
  induction n generalizing r with
  | zero => rfl
  | succ n ih =>
    unfold ruleAction
    rw [← h r hr]
    exact action_congr ih bound (hS r hr)

/-- Rules that are not called may be replaced by others, so that all rules are combined. -/
theorem IsCombinedWith.exists_rules {rules : ρ → Grammar ρ υ ν υ} {α : Type}
    {g : Grammar ρ υ ν α} (hg : IsCombinedWith rules g) :
    ∃ rules' : ρ → Grammar ρ υ ν υ, (∀ r, IsCombined (rules' r)) ∧
      ∀ bound, (run rules bound g : Action ω ν α) = run rules' bound g := by
  classical
  obtain ⟨S, -, hcalls, hS⟩ := hg
  let rules' : ρ → Grammar ρ υ ν υ := fun r => if S r then rules r else fail .noMatchingElement
  have hrules : ∀ r, S r → rules r = rules' r := fun r hr => (if_pos hr).symm
  refine ⟨rules', fun r => ?_, fun bound => ?_⟩
  · by_cases hr : S r
    · rw [← hrules r hr]
      exact (hS r hr).1
    · rw [show rules' r = fail .noMatchingElement from if_neg hr]
      exact .fail _
  · exact action_congr
      (ruleAction_congr hrules (fun r hr => (hS r hr).2) bound bound) bound hcalls

end Calls

section Run

variable [Source σ]

theorem recurs_ruleAction {rules : ρ → Grammar ρ υ ν υ} (hr : ∀ r, IsCombined (rules r))
    (bound n : Nat) (r : ρ) :
    Recurs (ruleAction rules bound n r : Action (Stream σ) ν υ) := by
  have hplain : ∀ r, (rules r).IsPlain fun _ => True := fun r => (hr r).isPlain
  induction n generalizing r with
  | zero =>
    intro s u e s' h hx
    cases hx
  | succ n ih =>
    have hk := keeps_ruleAction (σ := σ) Tokenizer.stable_ok hplain bound n
    have hk' := keeps_ruleAction (σ := σ) Tokenizer.stable_ok (fun r => (hplain r).guarded) bound n
    have hrules := coupled_ruleAction (σ := σ) hplain bound n
    exact recurs_action hk
      (fun hg => even_of_coupled (coupled_action hk hk' hrules bound _ hg)) ih (hr r)

/-- **Failing in a trial.**  Let a combined grammar fail by itself, with an error from which there is
recovery, in a stream with no trial open or with a mark at its place or before.  Then an attempt of
the grammar fails alike. -/
theorem attempt_of_failure {rules : ρ → Grammar ρ υ ν υ} {α : Type} {g : Grammar ρ υ ν α}
    (hg : IsCombinedWith rules g) (bound : Nat) {s s' : Session (Stream σ) ν} {e : ParseError}
    (hs : s.input.tokenizer.window.Ok)
    (hplace : s.input.trials = 0 ∨ s.input.Sheltered s.input.position)
    (hrun : run rules bound g s = some (.error e, s')) (he : e.isRecoverable = true) :
    ∃ s₁, Action.attempt (run rules bound g) s = some (.error e, s₁) := by
  obtain ⟨rules', hr, heq⟩ := hg.exists_rules (ω := Stream σ)
  have hcombined : IsCombined g := hg.choose_spec.1
  have hplain : ∀ r, (rules' r).IsPlain fun _ => True := fun r => (hr r).isPlain
  have heven : ∀ {α : Type} {g : Grammar ρ υ ν α}, (g.IsPlain fun _ => True) →
      Even (run rules' bound g : Action (Stream σ) ν α) :=
    fun hg => even_of_coupled (coupled_run hplain bound hg)
  have hkeeps : KeepsOk (run rules' bound g : Action (Stream σ) ν α) :=
    keeps_run Tokenizer.stable_ok hplain bound hcombined.isPlain
  rw [heq bound] at hrun ⊢
  obtain ⟨u', hbegun⟩ : ∃ u', run rules' bound g (begun s) = some (.error e, u') := by
    rcases hplace with hzero | hshelter
    · have hrecurs := recurs_action (keeps_ruleAction Tokenizer.stable_ok hplain bound bound) heven
        (recurs_ruleAction hr bound bound) hcombined
      exact hrecurs s (begun s) e s' (Stream.covered_begin hs hzero) hrun he
    · have habreast := (Stream.Abreast.refl hs).begin_right hshelter
      have hboth := heven hcombined.isPlain _ s (begun s) habreast hshelter
        (Stream.sheltered_begin s.input)
      rw [hrun] at hboth
      obtain ⟨u', hrun', -⟩ := hboth.of_error
      exact ⟨u', hrun'⟩
  obtain ⟨s₁, hattempt, -⟩ := attempt_goes_back hkeeps hs hbegun
  exact ⟨s₁, hattempt⟩

end Run

end Grammar

end StreamParser
