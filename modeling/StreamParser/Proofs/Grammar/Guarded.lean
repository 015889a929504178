import StreamParser.Proofs.Grammar.Commitment
import StreamParser.Proofs.Grammar.Coupling
import StreamParser.Proofs.Grammar.Rollback
import StreamParser.Proofs.Tokenizer.Outline

/-!
# Transactions and attempts

A transaction sets no mark of its own if a trial is open, since that trial goes back anyway.  This is
to spare marks, and nothing else should come of it.

* `Grammar.guarded` puts an attempt in place of every transaction of a grammar.
* `Stream.Abreast floor s u` relates the streams of the two runs: they have the same window at the
  same place, and as long as the place does not go back behind `floor`, the marks of both keep the
  same bytes.  Of the marks that only `u` holds none matters if `s` is `Stream.Sheltered`.
* After a failure the two may be at different places until the trial around them goes back
  (`Session.Parted`); then they are abreast again (`Action.both_attempt`).
* `Grammar.transactions_spare_marks` puts this together for plain grammars and any reachable
  tokenizer.
-/

namespace StreamParser

variable {σ ν : Type}

namespace Grammar

variable {ρ υ : Type}

/-- The grammar with an attempt in place of every transaction. -/
def guarded : {α : Type} → Grammar ρ υ ν α → Grammar ρ υ ν α
  | _, pattern p => pattern p
  | _, succeed a => succeed a
  | _, fail e => fail e
  | _, bind g next => bind g.guarded fun a => (next a).guarded
  | _, transaction g => attempt g.guarded
  | _, attempt g => attempt g.guarded
  | _, orElse g h => orElse g.guarded h.guarded
  | _, label m g => label m g.guarded
  | _, commit g => commit g.guarded
  | _, letGo g => letGo g.guarded
  | _, rule r => rule r
  | _, times n g => times n g.guarded
  | _, many most g => many most g.guarded
  | _, remark tell g => remark tell g.guarded

theorem IsPlain.guarded {P : Pattern → Prop} {α : Type} {g : Grammar ρ υ ν α} (hg : g.IsPlain P) :
    g.guarded.IsPlain P := by
  induction g with
  | pattern p => exact hg
  | succeed a => trivial
  | fail e => trivial
  | bind g next ihg ihnext => exact ⟨ihg hg.1, fun a => ihnext a (hg.2 a)⟩
  | transaction g ih => exact ih hg
  | attempt g ih => exact ih hg
  | orElse g h ihg ihh => exact ⟨ihg hg.1, ihh hg.2⟩
  | label m g ih => exact ih hg
  | commit g ih => exact hg
  | letGo g ih => exact hg
  | rule r => trivial
  | times n g ih => exact ih hg
  | many most g ih => exact ih hg
  | remark tell g ih => exact ih hg

end Grammar

/-! ### Streams side by side -/

namespace Stream

/-- The two streams have the same window at the same place, which is not before `floor`; and from
there on their marks keep the same bytes. -/
structure Abreast (floor : Nat) (s u : Stream σ) : Prop where
  ok : s.tokenizer.window.Ok
  ok' : u.tokenizer.window.Ok
  unplaced_eq : s.tokenizer.unplaced = u.tokenizer.unplaced
  position_eq : s.position = u.position
  floor_le : floor ≤ s.position
  oldest_eq : ∀ n, floor ≤ n →
    oldest n s.tokenizer.window.marks = oldest n u.tokenizer.window.marks

/-- A mark is held at `floor` or before. -/
def Sheltered (floor : Nat) (s : Stream σ) : Prop :=
  ∃ m ∈ s.tokenizer.window.marks, m.offset ≤ floor

variable {floor : Nat} {s s₁ u u₁ v : Stream σ}

theorem Abreast.refl (h : s.tokenizer.window.Ok) : Abreast s.position s s :=
  ⟨h, h, rfl, rfl, Nat.le_refl _, fun _ _ => rfl⟩

theorem Abreast.symm (h : Abreast floor s u) : Abreast floor u s where
  ok := h.ok'
  ok' := h.ok
  unplaced_eq := h.unplaced_eq.symm
  position_eq := h.position_eq.symm
  floor_le := h.position_eq ▸ h.floor_le
  oldest_eq n hn := (h.oldest_eq n hn).symm

theorem Abreast.trans (h : Abreast floor s u) (h' : Abreast floor u v) : Abreast floor s v where
  ok := h.ok
  ok' := h'.ok'
  unplaced_eq := h.unplaced_eq.trans h'.unplaced_eq
  position_eq := h.position_eq.trans h'.position_eq
  floor_le := h.floor_le
  oldest_eq n hn := (h.oldest_eq n hn).trans (h'.oldest_eq n hn)

theorem sheltered_begin (s : Stream σ) : Sheltered s.position s.begin.2 :=
  ⟨s.begin.1, List.mem_append_right _ (List.mem_singleton.2 rfl), Nat.le_refl _⟩

/-- One more mark at the place of the stream. -/
theorem oldest_begin (s : Stream σ) (n : Nat) :
    oldest n s.begin.2.tokenizer.window.marks =
      min (oldest n s.tokenizer.window.marks) s.position :=
  oldest_append_singleton n s.tokenizer.window.marks s.begin.1

/-- When a trial begins in both, they are abreast from its mark on. -/
theorem Abreast.begin (h : Abreast floor s u) : Abreast s.position s.begin.2 u.begin.2 where
  ok := h.ok.mark
  ok' := h.ok'.mark
  unplaced_eq := h.unplaced_eq
  position_eq := h.position_eq
  floor_le := Nat.le_refl _
  oldest_eq n hn := by
    have hfloor := h.floor_le
    rw [oldest_begin, oldest_begin, h.oldest_eq n (by omega), h.position_eq]

/-- A mark at the place of the stream keeps nothing that an earlier mark does not keep. -/
theorem Sheltered.oldest_begin_eq (hs : Sheltered floor s) (hfloor : floor ≤ s.position)
    (n : Nat) : oldest n s.begin.2.tokenizer.window.marks = oldest n s.tokenizer.window.marks := by
  obtain ⟨m, hm, hle⟩ := hs
  have hkept : oldest n s.tokenizer.window.marks ≤ m.offset := oldest_le_offset hm
  rw [oldest_begin]
  omega

/-- A trial may begin in one of them, if the other is sheltered. -/
theorem Abreast.begin_right (h : Abreast floor s u) (hs : Sheltered floor s) :
    Abreast floor s u.begin.2 where
  ok := h.ok
  ok' := h.ok'.mark
  unplaced_eq := h.unplaced_eq
  position_eq := h.position_eq
  floor_le := h.floor_le
  oldest_eq n hn := by
    have hbegin := hs.oldest_begin_eq h.floor_le n
    rw [oldest_begin, h.position_eq] at hbegin
    rw [oldest_begin, ← h.oldest_eq n hn, hbegin]

/-- Streams that come back to the marks they had are abreast as before. -/
theorem Abreast.of_kept {I I' : Tokenizer σ → Prop} (h : Abreast floor s u) (hs : Kept I s s₁)
    (hu : Kept I' u u₁) (ok : s₁.tokenizer.window.Ok) (ok' : u₁.tokenizer.window.Ok)
    (hunplaced : s₁.tokenizer.unplaced = u₁.tokenizer.unplaced)
    (hposition : s₁.position = u₁.position) (hfloor : floor ≤ s₁.position) :
    Abreast floor s₁ u₁ where
  ok := ok
  ok' := ok'
  unplaced_eq := hunplaced
  position_eq := hposition
  floor_le := hfloor
  oldest_eq n hn := by
    rw [hs.marks_eq, hu.marks_eq]
    exact h.oldest_eq n hn

theorem Sheltered.of_kept {I : Tokenizer σ → Prop} (hs : Sheltered floor s) (h : Kept I s s₁) :
    Sheltered floor s₁ := by
  unfold Sheltered
  rw [h.marks_eq]
  exact hs

/-- To go back and to give up a mark concerns only the place and the marks. -/
theorem unplaced_failed (m : Mark) (e : ParseError) (s : Stream σ) :
    (failed m e s).2.tokenizer.unplaced = s.tokenizer.unplaced := by
  have hreset : (s.tokenizer.reset m).2.unplaced = s.tokenizer.unplaced := by
    rcases Tokenizer.reset_cases s.tokenizer m with ⟨n, hr⟩ | ⟨e, hr⟩
    · rw [hr]
      rfl
    · rw [hr]
  unfold failed
  by_cases hheld : s.tokenizer.holds m = true
  · simp only [if_pos hheld]
    rcases hr : s.tokenizer.reset m with ⟨e | _, t⟩
    · rw [hr] at hreset
      exact hreset
    · rw [hr] at hreset
      exact hreset
  · simp only [if_neg hheld]

variable [Source σ]

/-- Streams that are abreast read the same. -/
theorem Abreast.matchPattern (h : Abreast floor s u) (p : Pattern) :
    (s.matchPattern p).1 = (u.matchPattern p).1 ∧
      Abreast floor (s.matchPattern p).2 (u.matchPattern p).2 := by
  have hplace : s.tokenizer.position = u.tokenizer.position := h.position_eq
  have houtline : s.tokenizer.outline = u.tokenizer.outline := by
    refine Tokenizer.outline_eq h.unplaced_eq hplace h.ok h.ok' ?_
    rw [← hplace]
    exact h.oldest_eq _ h.floor_le
  obtain ⟨hresult, hunplaced, hposition⟩ := Tokenizer.rawNext_congr houtline h.ok h.ok' p
  have hs := kept_matchPattern Tokenizer.stable_ok h.ok (p := p) trivial
  have hu := kept_matchPattern Tokenizer.stable_ok h.ok' (p := p) trivial
  have hle : floor ≤ (s.tokenizer.rawNext p).2.position :=
    Nat.le_trans h.floor_le (Tokenizer.position_le_rawNext h.ok p)
  rw [← tokenizer_matchPattern, ← tokenizer_matchPattern] at hunplaced hposition
  rw [← tokenizer_matchPattern] at hle
  exact ⟨matchPattern_congr hresult,
    h.of_kept hs hu hs.holds hu.holds hunplaced hposition hle⟩

end Stream

/-! ### Parts of a run -/

/-- The streams are abreast, and if a trial is open in the first, a mark shelters it. -/
def Session.InStep (floor : Nat) (s u : Session (Stream σ) ν) : Prop :=
  s.input.Abreast floor u.input ∧ (s.input.trials = 0 ∨ s.input.Sheltered floor)

/-- The streams have the same window, and are at the same place unless a trial is open. -/
def Session.Parted (s u : Session (Stream σ) ν) : Prop :=
  s.input.tokenizer.unplaced = u.input.tokenizer.unplaced ∧
    (s.input.trials = 0 → s.input.position = u.input.position)

/-- The streams are at the same place, and hold the marks `marks`. -/
def Session.Rejoined (marks : List Mark) (s u : Session (Stream σ) ν) : Prop :=
  s.input.position = u.input.position ∧ s.input.tokenizer.window.marks = marks ∧
    u.input.tokenizer.window.marks = marks

theorem Session.InStep.parted {floor : Nat} {s u : Session (Stream σ) ν} (h : InStep floor s u) :
    Parted s u :=
  ⟨h.1.unplaced_eq, fun _ => h.1.position_eq⟩

namespace Action

open Session

variable {α : Type} {floor : Nat} [Source σ] {x y : Action (Stream σ) ν α}

theorem coupled_matchPattern (p : Pattern) :
    Coupled (InStep floor) Parted (matchPattern p : Action (Stream σ) ν String)
      (matchPattern p) := by
  rintro s u ⟨h, hs⟩
  obtain ⟨hresult, hafter⟩ := h.matchPattern p
  have hkept := Stream.kept_matchPattern Tokenizer.stable_ok h.ok (p := p) trivial
  have hshelter : (s.input.matchPattern p).2.trials = 0 ∨
      (s.input.matchPattern p).2.Sheltered floor := by
    rw [hkept.trials_eq]
    exact hs.imp_right fun hs => hs.of_kept hkept
  show Both _ _ (some ((s.input.matchPattern p).1, _)) (some ((u.input.matchPattern p).1, _))
  rw [← hresult]
  cases (s.input.matchPattern p).1 with
  | ok token => exact .ok token ⟨hafter, hshelter⟩
  | error e => exact .error e (InStep.parted ⟨hafter, hshelter⟩)

/-- An attempt that succeeds stays at its place, with the window as it is and the marks from before. -/
theorem attempt_goes_on (hx : KeepsOk x) {s s₁ : Session (Stream σ) ν}
    (hs : s.input.tokenizer.window.Ok) {a : α} (h : x (begun s) = some (.ok a, s₁)) :
    ∃ s', attempt x s = some (.ok a, s') ∧ Stream.Kept (·.window.Ok) s.input s'.input ∧
      s'.input.position = s₁.input.position ∧
      s'.input.tokenizer.unplaced = s₁.input.tokenizer.unplaced := by
  obtain ⟨hkept, hposition⟩ :=
    Stream.kept_succeeded Tokenizer.stable_ok hs (hx _ _ _ hs.mark h)
  exact ⟨_, attempt_of_ok h, hkept, hposition, rfl⟩

/-- An attempt that fails goes back, with the window as it is and the marks from before. -/
theorem attempt_goes_back (hx : KeepsOk x) {s s₁ : Session (Stream σ) ν}
    (hs : s.input.tokenizer.window.Ok) {e : ParseError} (h : x (begun s) = some (.error e, s₁)) :
    ∃ s', attempt x s = some (.error e, s') ∧ Stream.Kept (·.window.Ok) s.input s'.input ∧
      s'.input.position = s.input.position ∧
      s'.input.tokenizer.unplaced = s₁.input.tokenizer.unplaced := by
  obtain ⟨he, hkept, hposition⟩ :=
    Stream.kept_failed Tokenizer.stable_ok hs (hx _ _ _ hs.mark h) e
  have hattempt := attempt_of_error h
  rw [he] at hattempt
  exact ⟨_, hattempt, hkept, hposition, Stream.unplaced_failed _ e s₁.input⟩

/-- **Attempts come back together.**  Two parts may be at different places after they have failed, but
attempts of them are back where they began. -/
theorem both_attempt (hx : KeepsOk x) (hy : KeepsOk y) {s u : Session (Stream σ) ν}
    (hsu : s.input.Abreast floor u.input)
    (hboth : Both (fun s₁ u₁ => s₁.input.Abreast s.input.position u₁.input)
      (fun s₁ u₁ => s₁.input.tokenizer.unplaced = u₁.input.tokenizer.unplaced)
      (x (begun s)) (y (begun u))) :
    Both (fun s₁ u₁ => s₁.input.Abreast floor u₁.input)
      (fun s₁ u₁ => s₁.input.Abreast floor u₁.input) (attempt x s) (attempt y u) := by
  have hfloor := hsu.floor_le
  rcases hxs : x (begun s) with _ | ⟨e | a, s₁⟩ <;> rw [hxs] at hboth
  · rw [attempt_of_none hxs, attempt_of_none hboth.of_none]
    exact .none
  · obtain ⟨u₁, hyu, hparted⟩ := hboth.of_error
    obtain ⟨s', hattempt, hs, hplace, hwindow⟩ := attempt_goes_back hx hsu.ok hxs
    obtain ⟨u', hattempt', hu, hplace', hwindow'⟩ := attempt_goes_back hy hsu.ok' hyu
    rw [hattempt, hattempt']
    refine .error e (hsu.of_kept hs hu hs.holds hu.holds ?_ ?_ ?_)
    · rw [hwindow, hwindow', hparted]
    · rw [hplace, hplace', hsu.position_eq]
    · rw [hplace]
      exact hfloor
  · obtain ⟨u₁, hyu, hstep⟩ := hboth.of_ok
    obtain ⟨s', hattempt, hs, hplace, hwindow⟩ := attempt_goes_on hx hsu.ok hxs
    obtain ⟨u', hattempt', hu, hplace', hwindow'⟩ := attempt_goes_on hy hsu.ok' hyu
    rw [hattempt, hattempt']
    refine .ok a (hsu.of_kept hs hu hs.holds hu.holds ?_ ?_ ?_)
    · rw [hwindow, hwindow', hstep.unplaced_eq]
    · rw [hplace, hplace', hstep.position_eq]
    · rw [hplace]
      exact Nat.le_trans hfloor hstep.floor_le

omit [Source σ] in
/-- When trials begin in streams that are abreast, parts of a run that are coupled go together. -/
theorem both_begun (h : ∀ floor, Coupled (InStep floor) Parted x y) {s u : Session (Stream σ) ν}
    (hsu : s.input.Abreast floor u.input) :
    Both (fun s₁ u₁ => s₁.input.Abreast s.input.position u₁.input)
      (fun s₁ u₁ => s₁.input.tokenizer.unplaced = u₁.input.tokenizer.unplaced)
      (x (begun s)) (y (begun u)) :=
  (h s.input.position (begun s) (begun u)
    ⟨hsu.begin, .inr (Stream.sheltered_begin s.input)⟩).mono (fun _ _ h => h.1) fun _ _ h => h.1

theorem coupled_attempt (hx : KeepsOk x) (hy : KeepsOk y)
    (h : ∀ floor, Coupled (InStep floor) Parted x y) (floor : Nat) :
    Coupled (InStep floor) (InStep floor) (attempt x) (attempt y) := by
  rintro s u ⟨hsu, hs⟩
  have hattempt := hx.attempt Tokenizer.stable_ok
  have hafter : ∀ {r s₁}, attempt x s = some (r, s₁) →
      s₁.input.trials = 0 ∨ s₁.input.Sheltered floor := by
    intro r s₁ h₁
    have hkept := hattempt s r s₁ hsu.ok h₁
    rw [hkept.trials_eq]
    exact hs.imp_right fun hs => hs.of_kept hkept
  exact (both_attempt hx hy hsu (both_begun h hsu)).imp
    (fun _ _ _ h₁ _ hsu₁ => ⟨hsu₁, hafter h₁⟩) fun _ _ _ h₁ _ hsu₁ => ⟨hsu₁, hafter h₁⟩

/-- **A transaction is as good as an attempt.**  If a trial is open, the transaction sets no mark; the
mark that the attempt sets keeps nothing that the shelter does not keep. -/
theorem coupled_transaction (hx : KeepsOk x) (hy : KeepsOk y)
    (h : ∀ floor, Coupled (InStep floor) Parted x y) :
    Coupled (InStep floor) Parted (transaction x) (attempt y) := by
  rintro s u ⟨hsu, hs⟩
  unfold Action.transaction
  by_cases htrying : Input.isTrying s.input = true
  · rw [if_pos htrying]
    have hopen : 0 < s.input.trials := of_decide_eq_true htrying
    have hshelter : s.input.Sheltered floor := hs.resolve_left (by omega)
    have hboth := h floor s (begun u) ⟨hsu.begin_right hshelter, .inr hshelter⟩
    rcases hxs : x s with _ | ⟨e | a, s₁⟩ <;> rw [hxs] at hboth
    · rw [attempt_of_none hboth.of_none]
      exact .none
    · obtain ⟨u₁, hyu, hparted, -⟩ := hboth.of_error
      obtain ⟨u', hattempt, -, -, hwindow⟩ := attempt_goes_back hy hsu.ok' hyu
      rw [hattempt]
      refine .error e ⟨?_, fun hzero => ?_⟩
      · rw [hwindow, hparted]
      · -- the trial that is open will go back
        have htrials : s₁.input.trials = s.input.trials := (hx _ _ _ hsu.ok hxs).trials_eq
        omega
    · obtain ⟨u₁, hyu, hstep, -⟩ := hboth.of_ok
      obtain ⟨u', hattempt, hu, hplace, hwindow⟩ := attempt_goes_on hy hsu.ok' hyu
      have hkept := hx _ _ _ hsu.ok hxs
      rw [hattempt]
      refine .ok a ⟨hsu.of_kept hkept hu hkept.holds hu.holds ?_ ?_ hstep.floor_le,
        .inr (hshelter.of_kept hkept)⟩
      · rw [hwindow, hstep.unplaced_eq]
      · rw [hplace, hstep.position_eq]
  · rw [if_neg htrying]
    exact (coupled_attempt hx hy h floor s u ⟨hsu, hs⟩).mono (fun _ _ h => h) fun _ _ => InStep.parted

end Action

/-! ### Grammars -/

namespace Grammar

open Session StreamParser.Action

variable [Source σ] {ρ υ : Type}

/-- A plain grammar with transactions goes along with the guarded one, if the rules do. -/
theorem coupled_action {rules rules' : ρ → Action (Stream σ) ν υ} (hk : ∀ r, KeepsOk (rules r))
    (hk' : ∀ r, KeepsOk (rules' r))
    (hr : ∀ r floor, Coupled (InStep floor) Parted (rules r) (rules' r)) (bound : Nat) {α : Type}
    (g : Grammar ρ υ ν α) (hg : g.IsPlain fun _ => True) (floor : Nat) :
    Coupled (InStep floor) Parted (action rules bound g) (action rules' bound g.guarded) := by
  have hx : ∀ {α : Type} (g : Grammar ρ υ ν α), (g.IsPlain fun _ => True) →
      KeepsOk (action rules bound g) :=
    fun g hg => keeps_action Tokenizer.stable_ok hk bound g hg
  have hy : ∀ {α : Type} (g : Grammar ρ υ ν α), (g.IsPlain fun _ => True) →
      KeepsOk (action rules' bound g.guarded) :=
    fun g hg => keeps_action Tokenizer.stable_ok hk' bound g.guarded hg.guarded
  have hparted : ∀ (floor : Nat) (s u : Session (Stream σ) ν), InStep floor s u → Parted s u :=
    fun _ _ _ => InStep.parted
  induction g generalizing floor with
  | pattern p =>
    cases p with
    | ok p => exact coupled_matchPattern p
    | error e => exact coupled_fail (hparted floor) _
  | succeed a => exact coupled_pure a
  | fail e => exact coupled_fail (hparted floor) e
  | bind g next ihg ihnext => exact (ihg hg.1 floor).bind fun a => ihnext a (hg.2 a) floor
  | transaction g ih => exact coupled_transaction (hx g hg) (hy g hg) (ih hg)
  | attempt g ih =>
    intro s u h
    have hattempt := coupled_attempt (hx g hg) (hy g hg) (ih hg) floor s u h
    exact hattempt.mono (fun _ _ h => h) (hparted floor)
  | orElse g h ihg ihh =>
    have hattempt := coupled_attempt (hx g hg.1) (hy g hg.1) (ihg hg.1) floor
    exact hattempt.orElse (ihh hg.2 floor) (hparted floor)
  | label m g ih => exact (ih hg floor).mapError _
  | commit g ih => exact hg.elim
  | letGo g ih => exact hg.elim
  | rule r => exact hr r floor
  | times n g ih => exact (ih hg floor).times n
  | many most g ih =>
    have hattempt := coupled_attempt (hx g hg) (hy g hg) (ih hg) floor
    exact hattempt.many (hparted floor) (fun _ _ h => h.1.position_eq.symm) most bound
  | remark tell g ih => exact (ih hg floor).remark tell (fun _ _ _ _ h => h) fun _ _ _ _ h => h

theorem coupled_ruleAction {rules : ρ → Grammar ρ υ ν υ}
    (hr : ∀ r, (rules r).IsPlain fun _ => True) (bound n : Nat) (r : ρ) (floor : Nat) :
    Coupled (InStep floor) Parted (ruleAction rules bound n r : Action (Stream σ) ν υ)
      (ruleAction (fun r => (rules r).guarded) bound n r) := by
  induction n generalizing r floor with
  | zero =>
    intro s u h
    exact .none
  | succ n ih =>
    have hk := keeps_ruleAction (σ := σ) Tokenizer.stable_ok hr bound n
    have hk' := keeps_ruleAction (σ := σ) Tokenizer.stable_ok (fun r => (hr r).guarded) bound n
    exact coupled_action hk hk' ih bound (rules r) (hr r) floor

/-- A run of a plain grammar goes along with the run of the guarded one. -/
theorem coupled_run {rules : ρ → Grammar ρ υ ν υ} (hr : ∀ r, (rules r).IsPlain fun _ => True)
    (bound : Nat) {α : Type} {g : Grammar ρ υ ν α} (hg : g.IsPlain fun _ => True) (floor : Nat) :
    Coupled (InStep floor) Parted (run rules bound g : Action (Stream σ) ν α)
      (run (fun r => (rules r).guarded) bound g.guarded) :=
  coupled_action (keeps_ruleAction Tokenizer.stable_ok hr bound bound)
    (keeps_ruleAction Tokenizer.stable_ok (fun r => (hr r).guarded) bound bound)
    (coupled_ruleAction hr bound bound) bound g hg floor

/-- **Transactions spare marks without a trace.**  Let a plain grammar be run over any reachable
tokenizer, with any number of trials open, and beside it the same grammar with an attempt in place of
every transaction.

* If no trial is open, or if a mark is held at the place of the tokenizer or before it, the two runs
  have the same result, and both leave the marks that were held.  They end at the same place if they
  succeed, or if no trial is open.
* If an attempt is made of each, the two have the same result, marks and place in any case. -/
theorem transactions_spare_marks {rules : ρ → Grammar ρ υ ν υ}
    (hr : ∀ r, (rules r).IsPlain fun _ => True) {α : Type} {g : Grammar ρ υ ν α}
    (hg : g.IsPlain fun _ => True) (bound : Nat) {t : Tokenizer σ} (ht : t.Reachable)
    (trials : Nat) (journal : List ν) :
    let s : Session (Stream σ) ν := ⟨⟨t, trials⟩, journal⟩
    let guards := fun r => (rules r).guarded
    (trials = 0 ∨ (∃ m ∈ t.window.marks, m.offset ≤ t.position) →
        Both (Rejoined t.window.marks)
          (fun s₁ s₂ => s₁.input.tokenizer.window.marks = t.window.marks ∧
            s₂.input.tokenizer.window.marks = t.window.marks ∧
            (trials = 0 → s₁.input.position = s₂.input.position))
          (run rules bound g s) (run guards bound g.guarded s)) ∧
      Both (Rejoined t.window.marks) (Rejoined t.window.marks)
        (run rules bound (attempt g) s) (run guards bound (attempt g.guarded) s) := by
  intro s guards
  have hkeeps : KeepsOk (run rules bound g : Action (Stream σ) ν α) :=
    keeps_run Tokenizer.stable_ok hr bound hg
  have hkeeps' : KeepsOk (run guards bound g.guarded : Action (Stream σ) ν α) :=
    keeps_run Tokenizer.stable_ok (fun r => (hr r).guarded) bound hg.guarded
  have habreast : s.input.Abreast t.position s.input := Stream.Abreast.refl (s := s.input) ht.ok
  refine ⟨fun hshelter => ?_, ?_⟩
  · refine (coupled_run hr bound hg t.position s s ⟨habreast, hshelter⟩).imp ?_ ?_
    · intro a s₁ s₂ h₁ h₂ hstep
      exact ⟨hstep.1.position_eq, (hkeeps s _ s₁ ht.ok h₁).marks_eq,
        (hkeeps' s _ s₂ ht.ok h₂).marks_eq⟩
    · intro e s₁ s₂ h₁ h₂ hparted
      have hkept := hkeeps s _ s₁ ht.ok h₁
      exact ⟨hkept.marks_eq, (hkeeps' s _ s₂ ht.ok h₂).marks_eq,
        fun hzero => hparted.2 (hkept.trials_eq.trans hzero)⟩
  · have hrejoin : ∀ (r : Except ParseError α) (s₁ s₂ : Session (Stream σ) ν),
        run rules bound (attempt g) s = some (r, s₁) →
        run guards bound (attempt g.guarded) s = some (r, s₂) →
        s₁.input.Abreast t.position s₂.input → Rejoined t.window.marks s₁ s₂ := by
      intro r s₁ s₂ h₁ h₂ h
      exact ⟨h.position_eq, (hkeeps.attempt Tokenizer.stable_ok s r s₁ ht.ok h₁).marks_eq,
        (hkeeps'.attempt Tokenizer.stable_ok s r s₂ ht.ok h₂).marks_eq⟩
    have hbegun := both_begun (coupled_run hr bound hg) habreast
    exact (both_attempt hkeeps hkeeps' habreast hbegun).imp (fun _ => hrejoin _) fun _ => hrejoin _

/-- No rules. -/
def noRules : Empty → Grammar Empty Unit Empty Unit := Empty.elim

/-- The letters `a` and `b`. -/
def letterPair : Grammar Empty Unit Empty String := (single 'a').skip (single 'b')

/-- The session of a trial that begins with the tokenizer. -/
def underTrial (t : Tokenizer Script) : Session (Stream Script) Empty :=
  ⟨(Stream.start t).begin.2, []⟩

/-- The mark of the trial shelters the transaction in it, and both runs fail alike. -/
theorem letterPair_spares_mark :
    (underTrial pair).input.tokenizer.Reachable ∧ letterPair.IsPlain (fun _ => True) ∧
      ∃ e s₁ s₂, run noRules 3 letterPair (underTrial pair) = some (.error e, s₁) ∧
        run (fun r => (noRules r).guarded) 3 letterPair.guarded (underTrial pair) =
          some (.error e, s₂) ∧
        s₁.input.tokenizer.window.marks = [⟨0, 0⟩] ∧
        s₂.input.tokenizer.window.marks = [⟨0, 0⟩] := by
  have hreachable : (underTrial pair).input.tokenizer.Reachable := .mark (.fresh pair_fresh)
  have hplain : letterPair.IsPlain fun _ => True := ⟨trivial, fun _ => ⟨trivial, fun _ => trivial⟩⟩
  have hfirst : (run noRules 3 letterPair (underTrial pair)).map Prod.fst =
      some (.error (.token (.inputMismatch "b"))) := by decide +kernel
  obtain ⟨⟨r, s₁⟩, hrun, rfl⟩ := Option.map_eq_some_iff.1 hfirst
  obtain ⟨hboth, -⟩ :=
    transactions_spare_marks (fun r => r.elim) hplain 3 hreachable 1 []
  have hagree := hboth (.inr ⟨⟨0, 0⟩, List.mem_singleton.2 rfl, Nat.le_refl 0⟩)
  have hrun' : run noRules 3 letterPair ⟨⟨(underTrial pair).input.tokenizer, 1⟩, []⟩ =
      some (.error (.token (.inputMismatch "b")), s₁) := hrun
  rw [hrun'] at hagree
  obtain ⟨s₂, hguarded, hmarks, hmarks', -⟩ := hagree.of_error
  exact ⟨hreachable, hplain, _, s₁, s₂, hrun, hguarded, hmarks, hmarks'⟩

/-- The letters `a`, `b` and `c`. -/
def letterRow : Grammar Empty Unit Empty String := letterPair.skip (single 'c')

/-- A tokenizer of three letters, with a window for two. -/
def narrow : Tokenizer Script :=
  ⟨⟨Utf8.bytes "abc", [], none⟩, .empty 2, .uninitialized, false, .empty 1, none, []⟩

/-- The session of a trial that has begun with the tokenizer and has committed. -/
def pastCommit (t : Tokenizer Script) : Session (Stream Script) Empty :=
  ⟨Input.commit (Stream.start t).begin.2, []⟩

/-- Past a commit no mark shelters the transactions in a trial.  They set none, and three letters can
be read through a window for two; the mark of an attempt would keep the first letter in it.  And
before the trial has gone back, a transaction that fails is behind its first letter, where an attempt
would not be. -/
theorem unsheltered_marks_tell :
    (pastCommit narrow).input.tokenizer.Reachable ∧ IsCombined letterRow ∧
      (run noRules 3 letterRow (pastCommit narrow)).map Prod.fst = some (.ok "a") ∧
      (run (fun r => (noRules r).guarded) 3 letterRow.guarded (pastCommit narrow)).map Prod.fst =
        some (.error (.token (.windowFull 2 2))) ∧
      (underTrial pair).input.tokenizer.Reachable ∧ IsCombined letterPair ∧
      (run noRules 3 letterPair (underTrial pair)).map (·.2.input.position) = some 1 ∧
      (run (fun r => (noRules r).guarded) 3 letterPair.guarded (underTrial pair)).map
        (·.2.input.position) = some 0 := by
  have hpair : IsCombined letterPair := (IsCombined.pattern _).skip (.pattern _)
  have hnarrow : narrow.Reachable := .fresh (.inr ⟨⟨2, 1, none⟩, rfl⟩)
  refine ⟨.commit (.mark hnarrow), hpair.skip (.pattern _), ?_, ?_, .mark (.fresh pair_fresh), hpair,
    ?_, ?_⟩
  · decide +kernel
  · decide +kernel
  · decide +kernel
  · decide +kernel

end Grammar

end StreamParser
