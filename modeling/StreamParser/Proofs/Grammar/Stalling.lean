import StreamParser.Proofs.Grammar.Coupling
import StreamParser.Proofs.Grammar.CursorSteps
import StreamParser.Proofs.Grammar.Deepening

/-!
# Things that are read from nothing

Something that is read from nothing ends a repetition.  `zeroOrMore` looks for that from its first
item on; `oneOrMore` reads the first item apart, and does not look for it there.

* `Grammar.FallsBack` says that the answer of `zeroOrMore` is that of `oneOrMore`, or the empty list
  instead of a failure.
* `Grammar.fallsBack_iff_not_stalled`: that is so unless the first item is read from nothing and the
  attempt after it does not fail in a way that can be recovered from.  If what is repeated always reads
  the same at the same place (`Grammar.IsSteady`), then `oneOrMore` reads it twice and `zeroOrMore`
  once.
* `Grammar.isSteady_run`: all that is put together from patterns is steady.
-/

namespace StreamParser

namespace Action

variable {ν α : Type} {x : Action Cursor ν α} {s t : Session Cursor ν}

/-! ### The first item of a repetition -/

/-- A repetition does not fail if the failure can be recovered from. -/
theorem not_isRecoverable_of_many {n : Nat} {e : ParseError}
    (h : many x none n s = some (.error e, t)) : e.isRecoverable = false := by
  induction n generalizing s with
  | zero => cases h
  | succ n ih =>
    obtain ⟨⟨e' | a, u⟩, hx⟩ := exists_of_many unbounded h
    · rw [many_of_error unbounded hx] at h
      cases he : e'.isRecoverable <;> simp only [he] at h <;> cases h
      exact he
    · by_cases hstays : u.input.position = s.input.position
      · rw [many_of_stays unbounded hx hstays] at h
        cases h
      · rw [many_of_moves unbounded hx hstays] at h
        obtain ⟨r, v, hrest, hr⟩ := exists_of_bind_pure h
        rcases r with e' | l <;> cases hr
        exact ih hrest

/-- A repetition reads nothing exactly if the first attempt fails in a way that can be recovered
from. -/
theorem many_eq_nil_iff {n : Nat} {r : Except ParseError (List α)}
    (h : many x none (n + 1) s = some (r, t)) :
    r = .ok [] ↔ ∃ e u, x s = some (.error e, u) ∧ e.isRecoverable = true := by
  constructor
  · rintro rfl
    obtain ⟨⟨e | a, u⟩, hx⟩ := exists_of_many unbounded h
    · rw [many_of_error unbounded hx] at h
      cases he : e.isRecoverable <;> simp only [he] at h <;> cases h
      exact ⟨e, u, hx, he⟩
    · by_cases hstays : u.input.position = s.input.position
      · rw [many_of_stays unbounded hx hstays] at h
        cases h
      · rw [many_of_moves unbounded hx hstays] at h
        obtain ⟨r, v, -, hr⟩ := exists_of_bind_pure h
        rcases r with e | l <;> cases hr
  · rintro ⟨e, u, hx, he⟩
    rw [many_of_error unbounded hx, if_pos he] at h
    cases h
    rfl

/-- And then it is back at the place where it began. -/
theorem position_of_many_eq_nil {n : Nat} (h : many x none (n + 1) s = some (.ok [], t)) :
    t.input.position = s.input.position := by
  obtain ⟨e, u, hx, he⟩ := (many_eq_nil_iff h).1 rfl
  rw [many_of_error unbounded hx, if_pos he] at h
  cases h
  rfl

end Action

namespace Action

/-! ### The same input -/

variable {ω ν α : Type} [Input ω] {x y : Action ω ν α}

/-- Two sessions with the same input; their journals may differ. -/
def SameInput (s u : Session ω ν) : Prop := s.input = u.input

theorem sameInput_matchPattern (p : Pattern) :
    Coupled SameInput SameInput (matchPattern p : Action ω ν String) (matchPattern p) := by
  rintro ⟨input, journal⟩ ⟨input', journal'⟩ rfl
  exact both_some _ rfl

theorem sameInput_attempt (hx : Coupled SameInput SameInput x y) :
    Coupled SameInput SameInput (attempt x) (attempt y) := by
  rintro ⟨input, journal⟩ ⟨input', journal'⟩ rfl
  have hboth := hx ⟨(Input.begin input).2, journal⟩ ⟨(Input.begin input).2, journal'⟩ rfl
  unfold attempt
  simp only
  generalize x _ = r at hboth ⊢
  generalize y _ = r' at hboth ⊢
  cases hboth with
  | none => exact .none
  | @ok a s u h =>
    rcases s with ⟨i, j⟩
    rcases u with ⟨i', j'⟩
    obtain rfl : i = i' := h
    exact .ok a rfl
  | @error e s u h =>
    rcases s with ⟨i, j⟩
    rcases u with ⟨i', j'⟩
    obtain rfl : i = i' := h
    exact .error _ rfl

theorem sameInput_transaction (hx : Coupled SameInput SameInput x y) :
    Coupled SameInput SameInput (transaction x) (transaction y) := by
  intro s u h
  have hinput : s.input = u.input := h
  unfold transaction
  rw [hinput]
  by_cases htrying : Input.isTrying u.input = true
  · rw [if_pos htrying, if_pos htrying]
    exact hx s u h
  · rw [if_neg htrying, if_neg htrying]
    exact sameInput_attempt hx s u h

theorem sameInput_letGo (hx : Coupled SameInput SameInput x y) :
    Coupled SameInput SameInput (letGo x) (letGo y) :=
  fun _ _ h => hx _ _ (congrArg Input.commit h)

theorem sameInput_commit (hx : Coupled SameInput SameInput x y) :
    Coupled SameInput SameInput (commit x) (commit y) := by
  intro s u h
  have hinput : s.input = u.input := h
  have hcommit := (sameInput_letGo hx).mapError (ParseError.afterCommit (Input.position s.input))
  unfold commit
  rw [← hinput]
  exact hcommit s u h

end Action

namespace Grammar

open StreamParser.Action (Extends SameInput Coupled many_of_error many_of_stays many_of_moves unbounded)

variable {ρ υ ν α : Type}

/-- One thing, and then as many as there are. -/
theorem action_oneOrMore (rules : ρ → Action Cursor ν υ) (bound : Nat) (g : Grammar ρ υ ν α) :
    action rules bound (oneOrMore g) = Action.bind (action rules bound g) fun a =>
      Action.bind (Action.many (action rules bound g) none bound) fun l => Action.pure (a :: l) := by
  funext s
  have hfirst : action rules bound (exactly 1 g) s =
      Action.bind (action rules bound g) (fun a => Action.pure [a]) s := rfl
  show Action.bind (action rules bound (exactly 1 g)) _ s = _
  unfold Action.bind
  rw [hfirst]
  unfold Action.bind
  rcases action rules bound g s with _ | ⟨e | a, t⟩ <;> rfl

/-- The answer `zero` of `zeroOrMore` from `s` is the answer `one` of `oneOrMore`, but the empty list
at `s` instead of a failure that can be recovered from. -/
structure FallsBack (s : Session Cursor ν) (one zero : Except ParseError (List α) × Session Cursor ν) :
    Prop where
  reads : ∀ l, one.1 = .ok l →
    zero.1 = .ok l ∧ zero.2.input.position = one.2.input.position
  recovers : ∀ e, one.1 = .error e → e.isRecoverable = true →
    zero.1 = .ok [] ∧ zero.2.input.position = s.input.position
  fails : ∀ e, one.1 = .error e → e.isRecoverable = false → zero.1 = .error e

/-- The run of the grammar from `s` comes to an answer, if its bound is large enough. -/
def Answers (rules : Nat → ρ → Action Cursor ν υ) (g : Grammar ρ υ ν α) (s : Session Cursor ν)
    (r : Except ParseError α × Session Cursor ν) : Prop :=
  ∃ k, action (rules k) k g s = some r

/-- What the grammar reads, and where it ends, depends only on where it begins. -/
def IsSteady (rules : Nat → ρ → Action Cursor ν υ) (g : Grammar ρ υ ν α) : Prop :=
  ∀ s t r, s.input = t.input → Answers rules g s r →
    ∃ u, Answers rules g t (r.1, u) ∧ u.input = r.2.input

/-- A grammar does the same with the same input, if its rules do. -/
theorem sameInput_action {ω : Type} [Input ω] {rules : ρ → Action ω ν υ}
    (hrules : ∀ r, Coupled SameInput SameInput (rules r) (rules r)) (bound : Nat)
    (g : Grammar ρ υ ν α) :
    Coupled SameInput SameInput (action rules bound g) (action rules bound g) := by
  have hself : ∀ s u : Session ω ν, SameInput s u → SameInput s u := fun _ _ h => h
  induction g with
  | pattern p =>
    cases p with
    | ok p => exact Action.sameInput_matchPattern p
    | error e => exact Action.coupled_fail hself _
  | succeed a => exact Action.coupled_pure a
  | fail e => exact Action.coupled_fail hself e
  | bind g next ihg ihnext => exact ihg.bind ihnext
  | transaction g ih => exact Action.sameInput_transaction ih
  | attempt g ih => exact Action.sameInput_attempt ih
  | orElse g h ihg ihh => exact (Action.sameInput_attempt ihg).orElse ihh hself
  | label m g ih => exact ih.mapError _
  | commit g ih => exact Action.sameInput_commit ih
  | letGo g ih => exact Action.sameInput_letGo ih
  | rule r => exact hrules r
  | times n g ih => exact ih.times n
  | many most g ih =>
    exact (Action.sameInput_attempt ih).many hself
      (fun s u h => congrArg Input.position h.symm) most bound
  | remark tell g ih => exact ih.remark tell (fun _ _ _ _ h => h) fun _ _ _ _ h => h

theorem sameInput_ruleAction {ω : Type} [Input ω] (rules : ρ → Grammar ρ υ ν υ) (bound n : Nat)
    (r : ρ) : Coupled SameInput SameInput (ruleAction rules bound n r : Action ω ν υ)
      (ruleAction rules bound n r) := by
  induction n generalizing r with
  | zero => exact fun _ _ _ => .none
  | succ n ih => exact sameInput_action ih bound (rules r)

/-- All grammars whose rules are grammars are steady. -/
theorem isSteady_run (rules : ρ → Grammar ρ υ ν υ) (g : Grammar ρ υ ν α) :
    IsSteady (fun n => ruleAction rules n n) g := by
  rintro s t ⟨r, v⟩ hinput ⟨n, hr⟩
  have hboth := sameInput_action (sameInput_ruleAction rules n n) n g s t hinput
  rw [hr] at hboth
  obtain ⟨u, hu, hsame⟩ := hboth.of_some
  exact ⟨u, ⟨n, hu⟩, hsame.symm⟩

/-- From `s` an item is read from nothing, and the attempt after it does not fail in a way that can be
recovered from. -/
def Stalls (rules : Nat → ρ → Action Cursor ν υ) (g : Grammar ρ υ ν α) (s : Session Cursor ν) :
    Prop :=
  ∃ a t, Answers rules g s (.ok a, t) ∧ t.input.position = s.input.position ∧
    ∀ e u, Answers rules g t (.error e, u) → e.isRecoverable = false

variable {rules : Nat → ρ → Action Cursor ν υ} {g : Grammar ρ υ ν α} {s : Session Cursor ν}

/-- An answer does not depend on the bound. -/
theorem Answers.eq {r r' : Except ParseError α × Session Cursor ν} (hrules : Deepens rules)
    (h : Answers rules g s r) (h' : Answers rules g s r') : r = r' := by
  obtain ⟨n, h⟩ := h
  obtain ⟨m, h'⟩ := h'
  have h := action_extends (hrules (Nat.le_max_left n m)) (Nat.le_max_left n m) g s r h
  have h' := action_extends (hrules (Nat.le_max_right n m)) (Nat.le_max_right n m) g s r' h'
  exact Option.some.inj (h.symm.trans h')

/-- The answers of both repetitions are told by one action, if its bound is large enough. -/
theorem exists_bound_of_answers {one zero : Except ParseError (List α) × Session Cursor ν}
    (hrules : Deepens rules) (hone : Answers rules (oneOrMore g) s one)
    (hzero : Answers rules (zeroOrMore g) s zero) :
    ∃ n, Action.bind (action (rules (n + 1)) (n + 1) g) (fun a =>
        Action.bind (Action.many (action (rules (n + 1)) (n + 1) g) none (n + 1)) fun l =>
          Action.pure (a :: l)) s = some one ∧
      Action.many (action (rules (n + 1)) (n + 1) g) none (n + 1) s = some zero := by
  obtain ⟨n, hone⟩ := hone
  obtain ⟨m, hzero⟩ := hzero
  have hn : n ≤ max n m + 1 := by omega
  have hm : m ≤ max n m + 1 := by omega
  refine ⟨max n m, ?_, action_extends (hrules hm) hm (zeroOrMore g) s zero hzero⟩
  rw [← action_oneOrMore]
  exact action_extends (hrules hn) hn (oneOrMore g) s one hone

/-! ### Both repetitions -/

section Both

variable {x : Action Cursor ν α} {t u : Session Cursor ν} {a : α} {e : ParseError} {n : Nat}
  {r : Except ParseError (List α)} {zero : Except ParseError (List α) × Session Cursor ν}

/-- If the first attempt fails, `oneOrMore` fails with it, and `zeroOrMore` may recover. -/
theorem fallsBack_of_error (hx : x s = some (.error e, t))
    (hzero : Action.many x none (n + 1) s = some zero) : FallsBack s (.error e, t) zero := by
  rw [many_of_error unbounded hx] at hzero
  cases hzero
  refine ⟨fun l h => (nomatch h), fun e' h he => ?_, fun e' h he => ?_⟩
  · cases h
    exact ⟨if_pos he, rfl⟩
  · cases h
    exact if_neg (Bool.eq_false_iff.1 he)

/-- If the first item is read from something, both read the same rest. -/
theorem fallsBack_of_moves (hx : x s = some (.ok a, t))
    (hmoves : t.input.position ≠ s.input.position)
    (hrest : Action.many x none (n + 1) t = some (r, u))
    (hzero : Action.many x none (n + 1) s = some zero) :
    FallsBack s (r.map (a :: ·), u) zero := by
  rw [many_of_moves unbounded hx hmoves] at hzero
  obtain ⟨r', u', hrest', rfl⟩ := Action.exists_of_bind_pure hzero
  have hsame := (Extends.refl _).many none (Nat.le_succ n) t _ hrest'
  cases hrest.symm.trans hsame
  refine ⟨fun l h => ⟨h, rfl⟩, fun e h he => ?_, fun e h _ => h⟩
  cases r <;> cases h
  rw [Action.not_isRecoverable_of_many hrest] at he
  cases he

/-- If the first item is read from nothing, `zeroOrMore` reads only that. -/
theorem fallsBack_singleton_iff (hplace : r = .ok [] → u.input.position = t.input.position) :
    FallsBack s (r.map (a :: ·), u) (.ok [a], t) ↔ r = .ok [] := by
  constructor
  · intro h
    rcases r with e | l
    · by_cases he : e.isRecoverable = true
      · cases (h.recovers e rfl he).1
      · cases h.fails e rfl (Bool.eq_false_iff.2 he)
    · cases (h.reads _ rfl).1
      rfl
  · rintro rfl
    refine ⟨fun l h => ?_, fun e h _ => (nomatch h), fun e h _ => (nomatch h)⟩
    cases h
    exact ⟨rfl, (hplace rfl).symm⟩

end Both

/-- An item that is read from nothing stalls the repetition if there is a rest. -/
theorem stalls_iff {n : Nat} {a : α} {t u : Session Cursor ν} {r : Except ParseError (List α)}
    (hrules : Deepens rules) (hx : action (rules n) n g s = some (.ok a, t))
    (hstays : t.input.position = s.input.position) {k : Nat}
    (hrest : Action.many (action (rules n) n g) none (k + 1) t = some (r, u)) :
    Stalls rules g s ↔ r ≠ .ok [] := by
  rw [Ne, Action.many_eq_nil_iff hrest]
  constructor
  · rintro ⟨a', t', ha, -, hno⟩ ⟨e, v, hv, he⟩
    cases ha.eq hrules ⟨n, hx⟩
    rw [hno e v ⟨n, hv⟩] at he
    cases he
  · intro h
    refine ⟨a, t, ⟨n, hx⟩, hstays, fun e v he => ?_⟩
    -- the bound is large enough for the attempt after the item
    obtain ⟨r', hr'⟩ := Action.exists_of_many unbounded hrest
    cases he.eq hrules ⟨n, hr'⟩
    exact Bool.eq_false_iff.2 fun he => h ⟨e, v, hr', he⟩

/-- What a steady grammar reads from nothing it reads again, and then the repetition is over. -/
theorem IsSteady.reads_again {n : Nat} {a : α} {t u : Session Cursor ν}
    {r : Except ParseError (List α)} (hrules : Deepens rules) (hsteady : IsSteady rules g)
    (hx : action (rules n) n g s = some (.ok a, t)) (hplace : t.input = s.input) {k : Nat}
    (hrest : Action.many (action (rules n) n g) none (k + 1) t = some (r, u)) : r = .ok [a] := by
  obtain ⟨v, hv, hsame⟩ := hsteady s t _ hplace.symm ⟨n, hx⟩
  obtain ⟨w, hw⟩ := Action.exists_of_many unbounded hrest
  cases hv.eq hrules ⟨n, hw⟩
  rw [many_of_stays unbounded hw (congrArg Cursor.position hsame)] at hrest
  cases hrest
  rfl

/-- **When `zeroOrMore` is `oneOrMore` that falls back to the empty list.**  Let both come to an answer
from the same place.  The answer of `zeroOrMore` is that of `oneOrMore`, or the empty list instead of a
failure that can be recovered from, unless the repetition stalls at its first item: then `zeroOrMore`
reads that item, and `oneOrMore` goes on.  Of a steady parser it reads the item twice. -/
theorem fallsBack_iff_not_stalled (hrules : Deepens rules)
    {one zero : Except ParseError (List α) × Session Cursor ν}
    (hone : Answers rules (oneOrMore g) s one) (hzero : Answers rules (zeroOrMore g) s zero) :
    (FallsBack s one zero ↔ ¬ Stalls rules g s) ∧
      (IsSteady rules g → ∀ a t, Answers rules g s (.ok a, t) → t.input = s.input →
        one.1 = .ok [a, a] ∧ zero.1 = .ok [a]) := by
  obtain ⟨n, hone, hzero⟩ := exists_bound_of_answers hrules hone hzero
  obtain ⟨⟨e | a, t⟩, hx⟩ := Action.exists_of_many unbounded hzero
  · -- the first attempt fails
    rw [Action.bind_of_error hx] at hone
    cases hone
    refine ⟨iff_of_true (fallsBack_of_error hx hzero) ?_, fun _ a t ha => ?_⟩
    · rintro ⟨a, t, ha, -⟩
      cases ha.eq hrules ⟨n + 1, hx⟩
    · cases ha.eq hrules ⟨n + 1, hx⟩
  · -- `oneOrMore` reads the rest after the item, whether or not that was read from nothing
    rw [Action.bind_of_ok hx] at hone
    obtain ⟨r, u, hrest, rfl⟩ := Action.exists_of_bind_pure hone
    by_cases hstays : t.input.position = s.input.position
    · rw [many_of_stays unbounded hx hstays] at hzero
      cases hzero
      refine ⟨?_, fun hsteady a' t' ha hplace => ?_⟩
      · rw [stalls_iff hrules hx hstays hrest, not_not]
        exact fallsBack_singleton_iff fun h => Action.position_of_many_eq_nil (h ▸ hrest)
      · cases ha.eq hrules ⟨n + 1, hx⟩
        cases hsteady.reads_again hrules hx hplace hrest
        exact ⟨rfl, rfl⟩
    · refine ⟨iff_of_true (fallsBack_of_moves hx hstays hrest hzero) ?_, fun _ a' t' ha hplace => ?_⟩
      · rintro ⟨a', t', ha, hstays', -⟩
        cases ha.eq hrules ⟨n + 1, hx⟩
        exact hstays hstays'
      · cases ha.eq hrules ⟨n + 1, hx⟩
        exact absurd (congrArg Cursor.position hplace) hstays

/-- Digits, or none. -/
def digits : Grammar Empty Unit Empty String :=
  pattern (.ok ⟨"[0-9]*", .rep true 0 none (.chars (.range 0x30 0x39))⟩)

/-- The beginning of a text without digits. -/
def beforeLetters : Session Cursor Empty := ⟨.start "abc", []⟩

/-- No digits are read twice by the one, and once by the other. -/
theorem digits_stall :
    ∃ one zero, Answers (fun n => ruleAction Empty.elim n n) (oneOrMore digits) beforeLetters one ∧
      Answers (fun n => ruleAction Empty.elim n n) (zeroOrMore digits) beforeLetters zero ∧
      ¬ FallsBack beforeLetters one zero ∧ one.1 = .ok ["", ""] ∧ zero.1 = .ok [""] := by
  have hrules : Deepens fun n => (ruleAction Empty.elim n n : Empty → Action Cursor Empty Unit) :=
    deepens_ruleAction Empty.elim
  have hdigits : Answers (fun n => ruleAction Empty.elim n n) digits beforeLetters
      (.ok "", beforeLetters) := ⟨0, rfl⟩
  have hone : Answers (fun n => ruleAction Empty.elim n n) (oneOrMore digits) beforeLetters
      (.ok ["", ""], beforeLetters) := ⟨1, rfl⟩
  have hzero : Answers (fun n => ruleAction Empty.elim n n) (zeroOrMore digits) beforeLetters
      (.ok [""], beforeLetters) := ⟨1, rfl⟩
  obtain ⟨hfalls, htwice⟩ := fallsBack_iff_not_stalled hrules hone hzero
  -- the attempt after the first item does not fail
  have hstalls : Stalls (fun n => ruleAction Empty.elim n n) digits beforeLetters :=
    ⟨"", beforeLetters, hdigits, rfl, fun e u he => nomatch he.eq hrules hdigits⟩
  exact ⟨_, _, hone, hzero, fun h => hfalls.1 h hstalls,
    htwice (isSteady_run Empty.elim digits) "" beforeLetters hdigits rfl⟩

end Grammar

end StreamParser
