import StreamParser.Proofs.Pattern.Streamable
import StreamParser.Proofs.Tokenizer.Atomicity
import StreamParser.Proofs.Tokenizer.Failure

/-!
# Requests that fail can be made again

A request that fails has taken nothing, so it can be made again when the cause is gone.

* `Falters s s₀ n` says that the source `s` does what `s₀` does, but for at most `n` reads that fail.
  `Tokenizer.insist` makes a request again as long as a read fails.
* `Tokenizer.Beside` relates a tokenizer of such a source to the tokenizer of the source that does not
  fail.  After a read that failed the window is compacted already, and nothing else has changed; so the
  next attempt comes to the same read (`insist_refill`).
* `Tokenizer.failed_requests_can_be_repeated`: to insist gives the answers that are given without the
  failures.
-/

namespace StreamParser

variable {σ τ : Type} [Source σ] [Source τ]

/-! ### Sources that falter -/

/-- The source `s` answers as `s₀` does, which never fails, but at most `n` times it fails instead and
hands out nothing.  Some relation between the sources holds here, and each read keeps it. -/
def Falters (s : σ) (s₀ : τ) (n : Nat) : Prop :=
  ∃ Like : σ → τ → Nat → Prop, Like s s₀ n ∧ ∀ s s₀ n room, Like s s₀ n → 0 < room →
    (∃ e m, (Source.read s room).1 = .failed e ∧ n = m + 1 ∧ Like (Source.read s room).2 s₀ m) ∨
      (Source.read s room).1 = (Source.read s₀ room).1 ∧
        (∀ e, (Source.read s₀ room).1 ≠ .failed e) ∧
          Like (Source.read s room).2 (Source.read s₀ room).2 n

theorem Falters.read {s : σ} {s₀ : τ} {n room : Nat} (h : Falters s s₀ n) (hr : 0 < room) :
    (∃ e m, (Source.read s room).1 = .failed e ∧ n = m + 1 ∧
        Falters (Source.read s room).2 s₀ m) ∨
      (Source.read s room).1 = (Source.read s₀ room).1 ∧
        (∀ e, (Source.read s₀ room).1 ≠ .failed e) ∧
          Falters (Source.read s room).2 (Source.read s₀ room).2 n := by
  obtain ⟨Like, hs, hread⟩ := h
  rcases hread s s₀ n room hs hr with ⟨e, m, hfails, hn, hnext⟩ | ⟨hsame, hfine, hnext⟩
  · exact .inl ⟨e, m, hfails, hn, Like, hnext, hread⟩
  · exact .inr ⟨hsame, hfine, Like, hnext, hread⟩

namespace Tokenizer

/-! ### Making a request again -/

/-- Make a request, and make it again as long as a read fails, at most `n` times. -/
def insist (p : Pattern) : Nat → Tokenizer σ → Except TokenError String × Tokenizer σ
  | 0, t => t.rawNext p
  | n + 1, t =>
    match t.rawNext p with
    | (.error (.io _), t) => insist p n t
    | answered => answered

/-- Make requests one after the other, each of them up to `n` times more: the answers, each with the
position after it. -/
def insistAll (n : Nat) : List Pattern → Tokenizer σ → List (Except TokenError String × Nat)
  | [], _ => []
  | p :: rest, t => ((insist p n t).1, (insist p n t).2.position) :: insistAll n rest (insist p n t).2

variable {t t' : Tokenizer σ} {p : Pattern}

theorem insist_of_io {e : IoError} (h : t.rawNext p = (.error (.io e), t')) (n : Nat) :
    insist p (n + 1) t = insist p n t' := by
  conv => lhs; unfold insist
  rw [h]

theorem insist_of_answered (h : ∀ e, (t.rawNext p).1 ≠ .error (.io e)) (n : Nat) :
    insist p n t = t.rawNext p := by
  cases n with
  | zero => rfl
  | succ n =>
    unfold insist
    split
    · rename_i e t' hr
      exact absurd (congrArg Prod.fst hr) (h e)
    · rfl

theorem insist_congr {u : Tokenizer σ} (h : t.rawNext p = u.rawNext p) (n : Nat) :
    insist p n t = insist p n u := by
  cases n with
  | zero => exact h
  | succ n =>
    unfold insist
    rw [h]

theorem Upheld.insist {I : Tokenizer σ → Prop} (hI : Upheld I) (h : I t) (p : Pattern) (n : Nat) :
    I (insist p n t).2 := by
  induction n generalizing t with
  | zero => exact hI.rawNext h p
  | succ n ih =>
    have hnext := hI.rawNext h p
    unfold Tokenizer.insist
    split
    · rename_i e t' hr
      rw [hr] at hnext
      exact ih hnext
    · exact hnext

/-! ### How requests are answered -/

/-- After a read the request goes on as if it had been made then. -/
theorem find_refill (h : t.window.Ok) (ho : t.IsOpen) (hv : t.verdict p = .wantsMore)
    (hf : t.window.isFull = false)
    (hr : ({ t with phase := .needsInput } : Tokenizer σ).refill = (.ok (), t')) :
    t.find p = t'.find p := by
  have hok := (ok_refill (t := { t with phase := .needsInput }) h).1
  have hphase := phase_refill ({ t with phase := .needsInput } : Tokenizer σ)
  rw [hr] at hok hphase
  exact (Settles.again hv hf hr (settles_find hok (.inr hphase) p)).find_eq h ho

omit [Source σ] in
/-- Whether more bytes are wanted depends on what is not consumed. -/
theorem wantsMore_iff (hp : p.Streamable) (h : t.window.Ok) :
    t.verdict p = .wantsMore ↔
      p.matchAt t.window.unconsumed 0 t.exhausted = .ok .needsInput ∨
        p.matchAt t.window.unconsumed 0 t.exhausted = .ok .noMatch ∧
          t.window.unconsumed = [] ∧ t.exhausted = false := by
  have hdrained := h.isDrained_iff
  obtain ⟨st, hst⟩ := hp.total t.window.unconsumed t.exhausted
  have hshift := hp.shift t.window.filled t.window.cursor t.exhausted h.cursor_le
  unfold verdict
  rw [hshift, show t.window.filled.drop t.window.cursor = t.window.unconsumed from rfl, hst]
  cases st with
  | matched stop => simp [Except.map, MatchStatus.shift]
  | needsInput => simp [Except.map, MatchStatus.shift]
  | noMatch =>
    simp only [Except.map, MatchStatus.shift, ← hdrained]
    cases t.window.isDrained <;> cases t.exhausted <;> simp

omit [Source σ] in
/-- To make room does not change what is wanted. -/
theorem wantsMore_of_compact {u : Tokenizer σ} (hp : p.Streamable) (h : t.window.Ok)
    (hw : u.window = t.window.compact) (he : u.exhausted = t.exhausted)
    (hv : t.verdict p = .wantsMore) : u.verdict p = .wantsMore := by
  have hu : u.window.Ok := hw ▸ h.compact
  rw [wantsMore_iff hp hu, hw, Window.unconsumed_compact, he]
  exact (wantsMore_iff hp h).1 hv

/-! ### Side by side -/

/-- The sources of the tokenizers answer alike but for failures, and the tokenizers do not differ in
what matters for requests. -/
structure Beside (t : Tokenizer σ) (u : Tokenizer τ) (n : Nat) : Prop where
  window_eq : u.window = t.window
  phase_eq : u.phase = t.phase
  exhausted_eq : u.exhausted = t.exhausted
  falters : Falters t.source u.source n

variable {u u' : Tokenizer τ} {n : Nat}

/-- A read fails and changes nothing, or the tokenizers read the same. -/
theorem Beside.read (h : Beside t u n) (hr : 0 < t.window.room) :
    (∃ e t' m, t.read = (.error (.io e), t') ∧ n = m + 1 ∧ Beside t' u m) ∨
      t.read.1 = .ok () ∧ u.read.1 = .ok () ∧ Beside t.read.2 u.read.2 n := by
  have hfalters := h.falters.read hr
  rw [← h.window_eq] at hfalters
  unfold Tokenizer.read
  rw [← h.window_eq]
  generalize Source.read t.source u.window.room = x at hfalters ⊢
  generalize Source.read u.source u.window.room = y at hfalters ⊢
  obtain ⟨reply, s⟩ := x
  obtain ⟨reply', s'⟩ := y
  dsimp only at hfalters
  rcases hfalters with ⟨e, m, rfl, hn, hnext⟩ | ⟨rfl, hfine, hnext⟩
  · exact .inl ⟨e, _, m, rfl, hn, rfl, h.phase_eq, h.exhausted_eq, hnext⟩
  · cases reply with
    | read bytes count => exact .inr ⟨rfl, rfl, rfl, h.phase_eq, h.exhausted_eq, hnext⟩
    | finished => exact .inr ⟨rfl, rfl, rfl, h.phase_eq, rfl, hnext⟩
    | failed e => exact absurd rfl (hfine e)

/-- A token that is found beside is consumed beside; and a read that fails is found out before. -/
theorem Beside.rawNext_of_find {r : Except TokenError Nat} (h : Beside t' u' n)
    (ht : t.find p = (r, t')) (hu : u.find p = (r, u')) (hr : ∀ e, r ≠ .error (.io e)) :
    (t.rawNext p).1 = (u.rawNext p).1 ∧ Beside (t.rawNext p).2 (u.rawNext p).2 n ∧
      ∀ e, (u.rawNext p).1 ≠ .error (.io e) := by
  unfold rawNext
  rw [ht, hu]
  cases r with
  | error e =>
    refine ⟨rfl, h, fun e' he => hr e' ?_⟩
    exact congrArg Except.error (Except.error.inj he)
  | ok stop =>
    simp only [h.window_eq]
    unfold Window.take
    cases Utf8.text? ((t'.window.filled.take stop).drop t'.window.cursor) with
    | none => exact ⟨rfl, h, fun e he => by cases he⟩
    | some token => exact ⟨rfl, ⟨rfl, h.phase_eq, h.exhausted_eq, h.falters⟩, fun e he => by cases he⟩

/-- What it means that to insist on a request gives the answer that is given without failures. -/
def Catches (p : Pattern) (k n : Nat) (t : Tokenizer σ) (u : Tokenizer τ) : Prop :=
  (insist p k t).1 = (u.rawNext p).1 ∧ (∃ m ≤ n, Beside (insist p k t).2 (u.rawNext p).2 m) ∧
    ∀ e, (u.rawNext p).1 ≠ .error (.io e)

/-- If no read is needed, the first attempt is answered. -/
theorem Beside.catches_of_find {r : Except TokenError Nat} (h : Beside t' u' n)
    (ht : t.find p = (r, t')) (hu : u.find p = (r, u')) (hr : ∀ e, r ≠ .error (.io e)) (k : Nat) :
    Catches p k n t u := by
  obtain ⟨hanswer, hbeside, hne⟩ := h.rawNext_of_find ht hu hr
  have hinsist : insist p k t = t.rawNext p := insist_of_answered (by rw [hanswer]; exact hne) k
  unfold Catches
  rw [hinsist]
  exact ⟨hanswer, ⟨n, Nat.le_refl n, hbeside⟩, hne⟩

/-- **To insist on a read.**  Each attempt that fails compacts the window, which is compacted already
after the first; and the attempt that does not fail reads what is read without failures. -/
theorem insist_refill (hp : p.Streamable) {k : Nat} (hk : n ≤ k) (hok : t.window.Ok) (ho : t.IsOpen)
    (hv : t.verdict p = .wantsMore) (hf : t.window.isFull = false)
    (h : Beside ({ t with phase := .needsInput } : Tokenizer σ).compacted u n) :
    u.read.1 = .ok () ∧ ∃ m ≤ n, ∃ k', m ≤ k' ∧ ∃ t', insist p k t = insist p k' t' ∧
      t'.window.Ok ∧ Beside t' u.read.2 m := by
  induction n using Nat.strongRecOn generalizing t k with
  | ind n ih =>
    have hroom : 0 < ({ t with phase := .needsInput } : Tokenizer σ).compacted.window.room :=
      hok.room_compact_pos hf
    rcases h.read hroom with ⟨e, t₁, m, hr, rfl, hnext⟩ | ⟨hr, hu, hnext⟩
    · obtain ⟨k, rfl⟩ := Nat.exists_eq_add_one_of_ne_zero (Nat.ne_zero_of_lt hk)
      have hfind := (Settles.failed hv hf hr).find_eq hok ho
      have hagain := insist_of_io (rawNext_of_find_error hfind) k
      have hwindow : t₁.window = t.window.compact := hnext.window_eq.symm.trans h.window_eq
      have hok₁ : t₁.window.Ok := hwindow ▸ hok.compact
      have ho₁ : t₁.IsOpen := .inr (hnext.phase_eq.symm.trans h.phase_eq)
      have hv₁ : t₁.verdict p = .wantsMore :=
        wantsMore_of_compact hp hok hwindow (hnext.exhausted_eq.symm.trans h.exhausted_eq) hv
      have hf₁ : t₁.window.isFull = false := by
        rw [hwindow, hok.isFull_compact, hf]
      have hcompact : t₁.window.compact = t₁.window := by
        rw [hwindow, Window.compact_of_retained hok.retained_compact]
      have hbeside : Beside ({ t₁ with phase := .needsInput } : Tokenizer σ).compacted u m :=
        ⟨hnext.window_eq.trans hcompact.symm, h.phase_eq, hnext.exhausted_eq, hnext.falters⟩
      obtain ⟨hread, m', hm', k', hk', t', hinsist, hrest⟩ :=
        ih m (Nat.lt_succ_self m) (Nat.le_of_succ_le_succ hk) hok₁ ho₁ hv₁ hf₁ hbeside
      exact ⟨hread, m', Nat.le_succ_of_le hm', k', hk', t', hagain.trans hinsist, hrest⟩
    · have hfind := find_refill (p := p) hok ho hv hf (Prod.ext hr rfl)
      have hrefilled := (ok_refill (t := { t with phase := .needsInput }) hok).1
      have hinsist := insist_congr (rawNext_eq_of_find hfind) k
      exact ⟨hu, n, Nat.le_refl n, k, hk, _, hinsist, hrefilled, hnext⟩

theorem Beside.verdict_eq (h : Beside t u n) (p : Pattern) : u.verdict p = t.verdict p := by
  unfold verdict
  rw [h.window_eq, h.exhausted_eq]

theorem Beside.isOpen (h : Beside t u n) (ho : t.IsOpen) : u.IsOpen := by
  unfold IsOpen
  rw [h.phase_eq]
  exact ho

theorem Beside.withPhase (h : Beside t u n) (phase : Phase) :
    Beside { t with phase := phase } { u with phase := phase } n :=
  ⟨h.window_eq, rfl, h.exhausted_eq, h.falters⟩

theorem Beside.note (h : Beside t u n) (l l' : List Event) : Beside (t.note l) (u.note l') n :=
  ⟨h.window_eq, h.phase_eq, h.exhausted_eq, h.falters⟩

theorem Beside.compacted (h : Beside t u n) : Beside t.compacted u.compacted n :=
  ⟨congrArg Window.compact h.window_eq, h.phase_eq, h.exhausted_eq, h.falters⟩

/-- The requests may go on elsewhere. -/
theorem Catches.of_eq {k k' m : Nat} (h : Catches p k' m t' u')
    (ht : insist p k t = insist p k' t') (hu : u.rawNext p = u'.rawNext p) (hm : m ≤ n) :
    Catches p k n t u := by
  unfold Catches
  rw [ht, hu]
  obtain ⟨hanswer, ⟨m', hm', hbeside⟩, hne⟩ := h
  exact ⟨hanswer, ⟨m', Nat.le_trans hm' hm, hbeside⟩, hne⟩

/-- If both requests are settled without a failure, the first attempt is answered. -/
theorem Beside.catches_of_settles {r : Except TokenError Nat} (h : Beside t u n)
    (hok : t.window.Ok) (ho : t.IsOpen) (ht : Settles p t r t') (hu : Settles p u r u')
    (hafter : Beside t' u' n) (hr : ∀ e, r ≠ .error (.io e)) (k : Nat) : Catches p k n t u :=
  hafter.catches_of_find (ht.find_eq hok ho) (hu.find_eq (h.window_eq ▸ hok) (h.isOpen ho)) hr k

/-- By induction on the reads that are made without failures. -/
theorem Settles.catches {r : Except TokenError Nat} (hs : Settles p u r u') (hp : p.Streamable)
    {k : Nat} (hk : n ≤ k) (hok : t.window.Ok) (ho : t.IsOpen) (h : Beside t u n) :
    Catches p k n t u := by
  induction hs generalizing t n k with
  | @found u stop hv =>
    have hvt : t.verdict p = .found stop := (h.verdict_eq p).symm.trans hv
    exact h.catches_of_settles hok ho (.found hvt) (.found hv) (h.withPhase .ready)
      (fun e he => by cases he) k
  | @absent u e hv =>
    have hvt : t.verdict p = .absent e := (h.verdict_eq p).symm.trans hv
    have hrecoverable := isRecoverable_of_absent hv
    refine h.catches_of_settles hok ho (.absent hvt) (.absent hv) (h.withPhase .ready)
      (fun e' he => ?_) k
    cases he
    cases hrecoverable
  | @stuck u e hv =>
    have hvt : t.verdict p = .stuck e := (h.verdict_eq p).symm.trans hv
    exact h.catches_of_settles hok ho (.stuck hvt) (.stuck hv) h (fun e he => by cases he) k
  | @full u hv hf =>
    have hvt : t.verdict p = .wantsMore := (h.verdict_eq p).symm.trans hv
    have hft : t.window.isFull = true := h.window_eq ▸ hf
    have herror : t.fullError = u.fullError := by
      unfold fullError
      rw [h.window_eq]
    have ht := Settles.full hvt hft
    rw [herror] at ht
    refine h.catches_of_settles hok ho ht (.full hv hf) ((h.withPhase .needsInput).note _ _)
      (fun e he => ?_) k
    unfold fullError at he
    split at he <;> cases he
  | @failed u u' e hv hf hr =>
    have hvt : t.verdict p = .wantsMore := (h.verdict_eq p).symm.trans hv
    have hft : t.window.isFull = false := h.window_eq ▸ hf
    obtain ⟨hread, -⟩ := insist_refill hp hk hok ho hvt hft (h.withPhase .needsInput).compacted
    rw [← refill_eq, hr] at hread
    cases hread
  | @again u u₁ u' r hv hf hr hs ih =>
    have hvt : t.verdict p = .wantsMore := (h.verdict_eq p).symm.trans hv
    have hft : t.window.isFull = false := h.window_eq ▸ hf
    obtain ⟨-, m, hm, k', hk', t', hinsist, hok', hbeside⟩ :=
      insist_refill hp hk hok ho hvt hft (h.withPhase .needsInput).compacted
    have hphase := phase_refill ({ u with phase := .needsInput } : Tokenizer τ)
    have hfind := find_refill (p := p) (h.window_eq ▸ hok) (h.isOpen ho) hv hf hr
    rw [← refill_eq, hr] at hbeside
    rw [hr] at hphase
    have ho' : t'.IsOpen := .inr (hbeside.phase_eq.symm.trans hphase)
    exact (ih hk' hok' ho' hbeside).of_eq hinsist (rawNext_eq_of_find hfind) hm

/-- The first read fails and changes nothing, or the tokenizers read the same. -/
theorem Beside.fill (h : Beside t u n) (hr : 0 < t.window.room) :
    (∃ e t' m, t.fill = (.error (.io e), t') ∧ n = m + 1 ∧ Beside t' u m) ∨
      t.fill.1 = .ok () ∧ u.fill.1 = .ok () ∧ Beside t.fill.2 u.fill.2 n := by
  have hread := (h.note [.initialFill t.window.capacity] [.initialFill u.window.capacity]).read hr
  unfold Tokenizer.fill
  generalize (t.note [.initialFill t.window.capacity]).read = x at hread ⊢
  generalize (u.note [.initialFill u.window.capacity]).read = y at hread ⊢
  obtain ⟨answer, t'⟩ := x
  obtain ⟨answer', u'⟩ := y
  rcases hread with ⟨e, t₁, m, hx, hn, hnext⟩ | ⟨hx, hy, hnext⟩
  · cases hx
    exact .inl ⟨e, _, m, rfl, hn, hnext.window_eq, hnext.phase_eq, hnext.exhausted_eq,
      hnext.falters⟩
  · cases hx
    cases hy
    exact .inr ⟨rfl, rfl, hnext.withPhase .ready⟩

/-- To insist on a request of a tokenizer that is at work. -/
theorem Beside.catches (h : Beside t u n) (hp : p.Streamable) {k : Nat} (hk : n ≤ k)
    (hok : t.window.Ok) (ho : t.IsOpen) : Catches p k n t u :=
  (settles_find (h.window_eq ▸ hok) (h.isOpen ho) p).catches hp hk hok ho h

/-- To insist on the first request. -/
theorem Beside.catches_of_uninitialized (h : Beside t u n) (hp : p.Streamable) {k : Nat}
    (hk : n ≤ k) (ht : t.Sound) (hphase : t.phase = .uninitialized) : Catches p k n t u := by
  induction n using Nat.strongRecOn generalizing t k with
  | ind n ih =>
    rcases h.fill (ht.room_pos hphase) with ⟨e, t', m, hfill, rfl, hnext⟩ | ⟨hfill, hfill', hnext⟩
    · obtain ⟨k, rfl⟩ := Nat.exists_eq_add_one_of_ne_zero (Nat.ne_zero_of_lt hk)
      have hsound := ht.fill
      rw [hfill] at hsound
      have hphase' : t'.phase = .uninitialized :=
        (hnext.phase_eq.symm.trans h.phase_eq).trans hphase
      have hfind : t.find p = (.error (.io e), t') := by
        unfold find
        rw [hphase, hfill]
      have hagain := insist_of_io (rawNext_of_find_error hfind) k
      have hrest := ih m (Nat.lt_succ_self m) hnext (Nat.le_of_succ_le_succ hk) hsound hphase'
      exact hrest.of_eq hagain rfl (Nat.le_succ m)
    · have ht' := find_fill (p := p) hphase (Prod.ext hfill rfl)
      have hu' := find_fill (p := p) (h.phase_eq.trans hphase) (Prod.ext hfill' rfl)
      have hrest := hnext.catches hp hk ht.fill.ok (.inl (phase_fill hfill))
      have hinsist := insist_congr (rawNext_eq_of_find ht') k
      exact hrest.of_eq hinsist (rawNext_eq_of_find hu') (Nat.le_refl n)

/-- To insist on a request, whatever the tokenizer is doing. -/
theorem Sound.catches (ht : t.Sound) (hp : p.Streamable) {k : Nat} (hk : n ≤ k)
    (h : Beside t u n) : Catches p k n t u := by
  cases hphase : t.phase with
  | uninitialized => exact h.catches_of_uninitialized hp hk ht hphase
  | ready => exact h.catches hp hk ht.ok (.inl hphase)
  | needsInput => exact h.catches hp hk ht.ok (.inr hphase)
  | closed =>
    have hu := find_of_closed (h.phase_eq.trans hphase) p
    exact h.catches_of_find (find_of_closed hphase p) hu (fun e he => by cases he) k

/-- To insist on each of some requests in a row. -/
theorem Sound.insistAll_eq (ht : t.Sound) (h : Beside t u n) {k : Nat} (hk : n ≤ k)
    {patterns : List Pattern} (hp : ∀ p ∈ patterns, p.Streamable) :
    insistAll k patterns t = insistAll 0 patterns u ∧
      ∀ x ∈ insistAll 0 patterns u, ∀ e, x.1 ≠ .error (.io e) := by
  induction patterns generalizing t u n with
  | nil => exact ⟨rfl, fun _ hx => absurd hx List.not_mem_nil⟩
  | cons p patterns ih =>
    obtain ⟨hanswer, ⟨m, hm, hbeside⟩, hne⟩ := ht.catches (hp p List.mem_cons_self) hk h
    have hsound := upheld_sound.insist ht p k
    obtain ⟨hrest, hrestne⟩ := ih hsound hbeside (Nat.le_trans hm hk)
      fun q hq => hp q (List.mem_cons_of_mem p hq)
    have hposition : (u.rawNext p).2.position = (insist p k t).2.position :=
      congrArg Window.position hbeside.window_eq
    constructor
    · show (_, _) :: _ = ((u.rawNext p).1, (u.rawNext p).2.position) :: _
      rw [hanswer, hposition, hrest]
      rfl
    · intro x hx
      rcases List.mem_cons.1 hx with rfl | hx
      · exact hne
      · exact hrestne x hx

/-! ### Failures in the middle of requests -/

/-- **A request that fails changes nothing, and can be made again.**  Let any request fail for a token,
wherever a client has come with a tokenizer, and whatever the reason.

* The position and the marks are as they were.  What was not consumed and what is still to come from
  the source are the same as before: if the bytes `l` were to come, bytes `l'` are still to come, and
  together with those that are not consumed they make up the same.  Whatever an honest source delivers,
  all that it has delivered meanwhile comes after what was not consumed.
* Let the source fail at most `n` times where another source, which does not fail, answers.  For patterns
  without assertions, to make each request again as long as a read fails then gives the same answers, at
  the same positions, as over the other source. -/
theorem failed_requests_can_be_repeated {t : Tokenizer σ} (ht : Reachable t) :
    (∀ p e t', t.rawNext p = (.error e, t') →
      t'.position = t.position ∧ t'.window.marks = t.window.marks ∧
        t.window.unconsumed <+: t'.window.unconsumed ∧
        (∀ l, t.Awaits l → ∃ l', t'.Awaits l' ∧
          t'.window.unconsumed ++ l' = t.window.unconsumed ++ l) ∧
        ((t.record.rawNext p).2.source.honest = true →
          t'.window.unconsumed =
            t.window.unconsumed ++ (t.record.rawNext p).2.source.delivered)) ∧
      ∀ {τ : Type} [Source τ] (s₀ : τ) (n : Nat), Falters t.source s₀ n →
        ∀ patterns : List Pattern, (∀ p ∈ patterns, p.IsLookFree) → ∀ k, n ≤ k →
          insistAll k patterns t = insistAll 0 patterns (t.map fun _ => s₀) ∧
            ∀ x ∈ insistAll k patterns t, ∀ e, x.1 ≠ .error (.io e) := by
  have hsound := ht.sound
  constructor
  · intro p e t' hr
    obtain ⟨-, hplace⟩ := samePlace_of_rawNext_error hsound.ok hr
    have hl := Window.Holds.padded t.window
    have hworks : Works t t' := by
      have hworks := works_rawNext t p
      rwa [hr] at hworks
    obtain ⟨more, hmore⟩ := hworks.holds hsound.ok hl
    refine ⟨hplace.position_eq, hplace.marks_eq, ⟨more, ?_⟩,
      fun l hawaits => hsound.awaits_of_rawNext_error hawaits hr, unconsumed_of_honest hsound.ok hr⟩
    exact (unconsumed_of_holds hsound.ok hl hmore hplace.position_eq).symm
  · intro τ _ s₀ n hfalters patterns hp k hk
    have hbeside : Beside t (t.map fun _ => s₀) n := ⟨rfl, rfl, rfl, hfalters⟩
    obtain ⟨hsame, hne⟩ := hsound.insistAll_eq hbeside hk fun p hmem => (hp p hmem).streamable
    refine ⟨hsame, ?_⟩
    rw [hsame]
    exact hne

end Tokenizer

/-- The step is a read that fails. -/
def ScriptStep.isFailure : ScriptStep → Bool
  | fail _ => true
  | _ => false

/-- A script without the reads that fail. -/
def Script.fluent (s : Script) : Script := { s with steps := s.steps.filter (!·.isFailure) }

/-- A script falters at the reads that fail. -/
theorem Script.falters (s : Script) :
    Falters s s.fluent (s.steps.countP ScriptStep.isFailure) := by
  refine ⟨fun s s₀ n => s₀ = s.fluent ∧ n = s.steps.countP ScriptStep.isFailure, ⟨rfl, rfl⟩, ?_⟩
  rintro ⟨bytes, steps, chunk⟩ _ _ room ⟨rfl, rfl⟩ -
  cases steps with
  | nil =>
    -- no step is left, and none comes back
    have hread : ∀ s : Script, s = ⟨bytes, [], chunk⟩ →
        (∀ e, (s.read room).1 ≠ .failed e) ∧ (s.read room).2 = (s.read room).2.fluent ∧
          0 = (s.read room).2.steps.countP ScriptStep.isFailure := by
      rintro s rfl
      unfold Script.read
      simp only
      split
      · exact ⟨fun _ => Reply.noConfusion, rfl, rfl⟩
      · exact ⟨fun _ => Reply.noConfusion, rfl, rfl⟩
    exact .inr ⟨rfl, hread _ rfl⟩
  | cons step steps =>
    cases step with
    | fail e => exact .inl ⟨e, _, rfl, List.countP_cons_of_pos rfl, rfl, rfl⟩
    | hand n => exact .inr ⟨rfl, fun _ => Reply.noConfusion, rfl, rfl⟩
    | finish => exact .inr ⟨rfl, fun _ => Reply.noConfusion, rfl, rfl⟩
    | overreport extra => exact .inr ⟨rfl, fun _ => Reply.noConfusion, rfl, rfl⟩

namespace Tokenizer

/-- Two letters from a source that fails four times. -/
def stammering : Tokenizer Script :=
  let busy : ScriptStep := .fail ⟨.timedOut, "busy"⟩
  ⟨⟨[0x61, 0x62], [busy, .hand 1, busy, busy, .hand 1, busy], none⟩, .empty 2, .uninitialized, false,
    .empty 1, none, []⟩

/-- The two letters as one token, and a third one. -/
def letterPair : List Pattern :=
  [⟨"ab", .seq (.chars (.single 'a')) (.chars (.single 'b'))⟩, ⟨"c", .chars (.single 'c')⟩]

/-- The first request fails three times, and the second once. -/
theorem stammering_is_overcome :
    Reachable stammering ∧
      (∀ p ∈ letterPair, (stammering.rawNext p).1 = .error (.io ⟨.timedOut, "busy"⟩) ∧
        (stammering.rawNext p).2.position = stammering.position) ∧
      insistAll 4 letterPair stammering =
        insistAll 0 letterPair (stammering.map fun s => s.fluent) ∧
      insistAll 4 letterPair stammering =
        [(.ok "ab", 2), (.error (.noSuchElement .exhausted), 2)] := by
  have hreachable : Reachable stammering := .fresh (s := stammering.source) (.inr ⟨⟨2, 1, none⟩, rfl⟩)
  obtain ⟨hfails, hagain⟩ := failed_requests_can_be_repeated hreachable
  have hfirst : ∀ p ∈ letterPair,
      (stammering.rawNext p).1 = .error (.io ⟨.timedOut, "busy"⟩) := by
    unfold letterPair
    simp only [List.forall_mem_cons]
    exact ⟨by decide +kernel, by decide +kernel, List.forall_mem_nil _⟩
  have hlookFree : ∀ p ∈ letterPair, p.IsLookFree := by decide
  refine ⟨hreachable, fun p hp => ⟨hfirst p hp, ?_⟩, ?_, by decide +kernel⟩
  · exact (hfails p _ _ (Prod.ext (hfirst p hp) rfl)).1
  · exact (hagain _ _ stammering.source.falters letterPair hlookFree 4 (by decide)).1

end Tokenizer

end StreamParser
