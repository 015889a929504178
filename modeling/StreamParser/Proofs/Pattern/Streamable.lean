import StreamParser.Proofs.Pattern.Settlement

/-!
# Patterns that can be matched piece by piece

A pattern is *streamable* if its answer depends only on the bytes from the start on, if it always
has an answer, and if a settled answer stands.  Then it does not matter how much of the input before
and after the place is in the window.

* `IsLookFree.streamable`: patterns without assertions are streamable;
* `streamable_of_textEnd`: so is the pattern that matches nothing but the end of the input.
-/

namespace StreamParser

/-- The answer for a window that has `n` more bytes in front. -/
def MatchStatus.shift (n : Nat) : MatchStatus → MatchStatus
  | matched stop => matched (n + stop)
  | needsInput => needsInput
  | noMatch => noMatch

/-- The answer when the last match ends at `last`, with `n` more bytes in front. -/
theorem MatchStatus.ofLast_map (n : Nat) (last : Option Nat) :
    ofLast (last.map (n + ·)) = (ofLast last).shift n := by
  cases last <;> rfl

theorem MatchStatus.shift_injective (n : Nat) : Function.Injective (shift n) := by
  intro st st' h
  cases st <;> cases st' <;> simp only [shift, matched.injEq, reduceCtorEq] at h ⊢
  exact Nat.add_left_cancel h

namespace Pattern

open Scan

/-- No assertion occurs in the pattern. -/
def IsLookFree (p : Pattern) : Prop := p.expr.anyLook (fun _ => true) = false

instance (p : Pattern) : Decidable p.IsLookFree := inferInstanceAs (Decidable (_ = _))

/-- The pattern can be matched piece by piece. -/
structure Streamable (p : Pattern) : Prop where
  /-- There is an answer. -/
  total : ∀ w atEnd, ∃ st, p.matchAt w 0 atEnd = .ok st
  /-- The bytes before the start do not matter. -/
  shift : ∀ w start atEnd, start ≤ w.length →
    p.matchAt w start atEnd = (p.matchAt (w.drop start) 0 atEnd).map (MatchStatus.shift start)
  /-- A settled answer stands. -/
  stands : ∀ w c st, p.matchAt w 0 false = .ok st → st ≠ .needsInput →
    ∀ atEnd, p.matchAt (w ++ c) 0 atEnd = .ok st

/-- The answer at a place is the answer for the bytes from there on, counted from there. -/
theorem Streamable.matchAt_iff {p : Pattern} (hp : p.Streamable) {w : List UInt8} {start : Nat}
    (hs : start ≤ w.length) {atEnd : Bool} {m : MatchStatus} :
    p.matchAt w start atEnd = .ok (m.shift start) ↔ p.matchAt (w.drop start) 0 atEnd = .ok m := by
  rw [hp.shift w start atEnd hs]
  rcases p.matchAt (w.drop start) 0 atEnd with e | st'
  · exact iff_of_false (fun h => nomatch h) fun h => nomatch h
  · refine ⟨fun h => ?_, fun h => congrArg _ h⟩
    exact congrArg _ (MatchStatus.shift_injective start (Except.ok.inj h))

/-! ### Patterns without assertions -/

theorem anyLook_of_imp {e : Expr} {kind kind' : Look → Bool}
    (hk : ∀ l, kind l = true → kind' l = true) (h : e.anyLook kind' = false) :
    e.anyLook kind = false := by
  induction e with
  | empty => rfl
  | chars set => rfl
  | look l =>
    cases hl : kind l with
    | false => exact hl
    | true => exact absurd (hk l hl) (by simpa [Expr.anyLook] using h)
  | seq a b iha ihb =>
    obtain ⟨ha, hb⟩ := Bool.or_eq_false_iff.1 h
    exact Bool.or_eq_false_iff.2 ⟨iha ha, ihb hb⟩
  | alt a b iha ihb =>
    obtain ⟨ha, hb⟩ := Bool.or_eq_false_iff.1 h
    exact Bool.or_eq_false_iff.2 ⟨iha ha, ihb hb⟩
  | rep greedy least most e ih => exact ih h

theorem IsLookFree.asciiOnly {p : Pattern} (hp : p.IsLookFree) : p.asciiOnly = false :=
  anyLook_of_imp (fun _ _ => rfl) hp

theorem IsLookFree.isBlindToEnd {p : Pattern} (hp : p.IsLookFree) : p.IsBlindToEnd :=
  .inl (anyLook_of_imp (fun _ _ => rfl) hp)

/-- The states of a scan without assertions. -/
abbrev LookFreeState (s : State) : Prop := s.Lacks fun _ => true

/-- Without assertions it does not matter what comes next. -/
theorem threadsBefore_of_lookFree {s : State} (h : LookFreeState s) (next : Option UInt8) :
    s.threadsBefore next = s.threads := by
  have hnone : (s.threads.any fun t => t.look?.any fun l =>
      l.holds s.before next && !l.holdsAfter s.before) = false := by
    rw [List.any_eq_false]
    intro t ht
    cases hl : t.look? with
    | none => simp
    | some l => cases Thread.not_kind_of_look? (h t ht) hl
  unfold State.threadsBefore
  simp only [hnone, Bool.false_eq_true, if_false]

theorem endsMatched_congr {s s' : State} (h : LookFreeState s) (h' : LookFreeState s')
    (ht : s.threads = s'.threads) : s.endsMatched = s'.endsMatched := by
  unfold State.endsMatched
  rw [threadsBefore_of_lookFree h, threadsBefore_of_lookFree h', ht]

theorem step_congr {s s' : State} (h : LookFreeState s) (h' : LookFreeState s')
    (ht : s.threads = s'.threads) (b : UInt8) : s.step false b = s'.step false b := by
  have hread : s.read b = s'.read b := by
    unfold State.read
    rw [threadsBefore_of_lookFree h, threadsBefore_of_lookFree h', ht]
  unfold State.step State.isStuckAt
  rw [hread]
  rfl

theorem isSettled_congr {s s' : State} (h : LookFreeState s) (h' : LookFreeState s')
    (ht : s.threads = s'.threads) (last final : Option Nat) (n : Nat) :
    isSettled false s last final n = isSettled false s' last final n := by
  unfold isSettled
  simp only [State.diesAt_eq, step_congr h h' ht]

/-- The byte before the start does not matter either. -/
theorem threads_init_congr {e : Expr} (h : e.anyLook (fun _ => true) = false)
    (before before' : Option UInt8) :
    (State.init before e).threads = (State.init before' e).threads := by
  refine spread_congr (P := Thread.Lacks fun _ => true)
    (fun _ ht _ hu => Thread.lacks_of_mem_ways ht hu)
    (fun _ ht => Thread.ways_congr (fun l hl => by cases hl) ht) fun t ht => ?_
  rw [List.mem_singleton.1 ht]
  simpa using h

/-- Two states with the same threads give the same answer. -/
theorem answer_congr {s s' : State} (h : LookFreeState s) (h' : LookFreeState s')
    (ht : s.threads = s'.threads) (source : String) (n offset : Nat) (atEnd : Bool)
    (last : Option Nat) (l : List UInt8) :
    (scan false s offset last l).answer source false n atEnd =
      (scan false s' offset last l).answer source false n atEnd := by
  cases l with
  | nil =>
    have hend : finalEnd s last n = finalEnd s' last n := by
      unfold finalEnd
      rw [endsMatched_congr h h' ht]
    simp only [scan, Progress.answer, hend, isSettled_congr h h' ht]
  | cons b l => simp only [scan, step_congr h h' ht b]

/-- A scan that judges all bytes, with `k` more bytes in front. -/
theorem answer_shift (k : Nat) (s : State) (source : String) (n offset : Nat) (atEnd : Bool)
    (last : Option Nat) (l : List UInt8) :
    (scan false s (k + offset) (last.map (k + ·)) l).answer source false (k + n) atEnd =
      ((scan false s offset last l).answer source false n atEnd).map (MatchStatus.shift k) := by
  have hinj : ∀ a b : Option Nat, (a.map (k + ·) == b.map (k + ·)) = (a == b) := by
    intro a b
    cases a <;> cases b <;> simp
  induction l generalizing s offset last with
  | nil =>
    have hend : finalEnd s (last.map (k + ·)) (k + n) = (finalEnd s last n).map (k + ·) := by
      unfold finalEnd
      split <;> rfl
    have hset : isSettled false s (last.map (k + ·)) ((finalEnd s last n).map (k + ·)) (k + n) =
        isSettled false s last (finalEnd s last n) n := by
      have hn : ((finalEnd s last n).map (k + ·) == some (k + n)) =
          (finalEnd s last n == some n) := hinj _ (some n)
      unfold isSettled
      simp only [hinj, hn]
    simp only [scan, Progress.answer, hend, hset, MatchStatus.ofLast_map]
    split <;> rfl
  | cons b l ih =>
    unfold scan
    cases hs : s.step false b with
    | none =>
      simp [State.step, State.isStuckAt] at hs
    | some s' =>
      simp only
      split
      · exact ih s' (offset + 1) (some offset)
      · split
        · simp only [Progress.answer, MatchStatus.ofLast_map]
          rfl
        · exact ih s' (offset + 1) last

/-- The match of a pattern without assertions, in terms of its scan. -/
theorem IsLookFree.matchAt_eq {p : Pattern} (hp : p.IsLookFree) (w : List UInt8) {start : Nat}
    (hs : start ≤ w.length) (atEnd : Bool) :
    p.matchAt w start atEnd =
      ((scan false (State.init none p.expr) 0 none (w.drop start)).answer p.source false
        (w.length - start) atEnd).map (MatchStatus.shift start) := by
  have hscan : ∀ before,
      (scan false (State.init before p.expr) start none (w.drop start)).answer p.source false
        w.length atEnd =
      ((scan false (State.init none p.expr) 0 none (w.drop start)).answer p.source false
        (w.length - start) atEnd).map (MatchStatus.shift start) := by
    intro before
    rw [answer_congr (State.lacks_init hp before) (State.lacks_init hp none)
      (threads_init_congr hp before none), ← answer_shift]
    simp only [Nat.add_zero, Option.map_none, Nat.add_sub_cancel' hs]
  rw [Pattern.matchAt_eq p w hs, hp.asciiOnly]
  cases byteBefore w start with
  | none => exact hscan none
  | some b => exact hscan (some b)

/-- Without assertions no byte is beyond judgement. -/
theorem exists_answer (s : State) (source : String) (n offset : Nat) (atEnd : Bool)
    (last : Option Nat) (l : List UInt8) :
    ∃ st, (scan false s offset last l).answer source false n atEnd = .ok st := by
  induction l generalizing s offset last with
  | nil =>
    simp only [scan, Progress.answer]
    split
    · exact ⟨_, rfl⟩
    · exact ⟨_, rfl⟩
  | cons b l ih =>
    unfold scan
    cases hs : s.step false b with
    | none => simp [State.step, State.isStuckAt] at hs
    | some s' =>
      simp only
      split
      · exact ih _ _ _
      · split
        · exact ⟨_, rfl⟩
        · exact ih _ _ _

/-- So a pattern that judges all bytes has an answer everywhere. -/
theorem exists_matchAt {p : Pattern} (hp : p.asciiOnly = false) {w : List UInt8} {start : Nat}
    (hs : start ≤ w.length) (atEnd : Bool) : ∃ st, p.matchAt w start atEnd = .ok st := by
  rw [matchAt_eq p w hs, hp]
  split
  · exact exists_answer _ _ _ _ _ _ _
  · exact exists_answer _ _ _ _ _ _ _

theorem IsLookFree.streamable {p : Pattern} (hp : p.IsLookFree) : p.Streamable where
  total w atEnd := by
    obtain ⟨st, hst⟩ := exists_answer (State.init none p.expr) p.source (w.length - 0) 0 atEnd
      none (w.drop 0)
    exact ⟨st.shift 0, by rw [hp.matchAt_eq w (Nat.zero_le _), hst]; rfl⟩
  shift w start atEnd hs := by
    have hzero : MatchStatus.shift 0 = id := by
      funext st
      cases st <;> simp [MatchStatus.shift]
    rw [hp.matchAt_eq w hs, hp.matchAt_eq (w.drop start) (Nat.zero_le _)]
    simp only [List.drop_zero, List.length_drop, Nat.sub_zero, hzero, Except.map_id]
    rfl
  stands w c st h hn := by
    rcases matchAt_append_cases (Nat.zero_le _) h hn c with hall | ⟨hno, -⟩
    · exact hall
    · exact absurd hp.isBlindToEnd hno

/-! ### The end of the input -/

/-- A scan for the end of the input dies at the next byte, and matches if there is none. -/
theorem diesAt_textEnd (before : Option UInt8) (b : UInt8) :
    (State.init before (.look .textEnd)).diesAt false b = true := rfl

theorem endsMatched_textEnd (before : Option UInt8) :
    (State.init before (.look .textEnd)).endsMatched = true := rfl

theorem matchAt_of_textEnd {p : Pattern} (hp : p.expr = .look .textEnd) (w : List UInt8)
    {start : Nat} (hs : start ≤ w.length) (atEnd : Bool) :
    p.matchAt w start atEnd =
      .ok (if start < w.length then .noMatch else if atEnd then .matched w.length
        else .needsInput) := by
  have hascii : p.asciiOnly = false := by
    unfold asciiOnly
    rw [hp]
    rfl
  have hscan : ∀ before,
      (scan false (State.init before p.expr) start none (w.drop start)).answer p.source false
        w.length atEnd =
      .ok (if start < w.length then .noMatch else if atEnd then .matched w.length
        else .needsInput) := by
    intro before
    rw [hp]
    cases hl : w.drop start with
    | cons b l =>
      have hlt : start < w.length := by
        have := congrArg List.length hl
        rw [List.length_drop, List.length_cons] at this
        omega
      rw [scan_cons_of_diesAt (diesAt_textEnd before b), if_pos hlt]
      rfl
    | nil =>
      have hge : ¬ start < w.length := by
        have := congrArg List.length hl
        rw [List.length_drop, List.length_nil] at this
        omega
      have hend : finalEnd (State.init before (.look .textEnd)) none w.length =
          some w.length := by
        unfold finalEnd
        rw [if_pos (endsMatched_textEnd before)]
      -- the match is not settled: it is lost with any byte that follows
      have hset : isSettled false (State.init before (.look .textEnd)) none (some w.length)
          w.length = false := by
        rw [← Bool.not_eq_true]
        intro h
        rcases cases_of_isSettled h 0 with ⟨-, hno⟩ | ⟨next, hs, hm, -, -⟩
        · cases hno
        · have := State.diesAt_eq false (State.init before (.look .textEnd)) 0
          rw [diesAt_textEnd, hs] at this
          simp [State.isDead, hm] at this
      simp only [scan, Progress.answer, hend, hset, Bool.or_false, if_neg hge]
      cases atEnd <;> rfl
  rw [Pattern.matchAt_eq p w hs, hascii]
  cases byteBefore w start with
  | none => exact hscan none
  | some b => exact hscan (some b)

theorem streamable_of_textEnd {p : Pattern} (hp : p.expr = .look .textEnd) : p.Streamable where
  total w atEnd := ⟨_, matchAt_of_textEnd hp w (Nat.zero_le _) atEnd⟩
  shift w start atEnd hs := by
    rw [matchAt_of_textEnd hp w hs, matchAt_of_textEnd hp (w.drop start) (Nat.zero_le _),
      List.length_drop]
    have hiff : 0 < w.length - start ↔ start < w.length := by omega
    simp only [Except.map, hiff]
    by_cases hlt : start < w.length
    · simp only [if_pos hlt, MatchStatus.shift]
    · simp only [if_neg hlt]
      cases atEnd
      · rfl
      · simp only [if_true, MatchStatus.shift, Nat.add_sub_cancel' hs]
  stands w c st h hn atEnd := by
    rw [matchAt_of_textEnd hp w (Nat.zero_le _)] at h
    rw [matchAt_of_textEnd hp (w ++ c) (Nat.zero_le _)]
    obtain rfl := Except.ok.inj h
    by_cases hlt : 0 < w.length
    · rw [if_pos hlt, if_pos (by rw [List.length_append]; omega)]
    · rw [if_neg hlt] at hn
      exact absurd rfl hn

/-! ### Answers -/

/-- With the end of the input in sight no answer is put off. -/
theorem matchAt_ne_needsInput (p : Pattern) (w : List UInt8) (start : Nat) :
    p.matchAt w start true ≠ .ok .needsInput := by
  have hlast : ∀ last, MatchStatus.ofLast last ≠ .needsInput := by
    intro last
    cases last <;> exact fun h => by cases h
  have hscan : ∀ s last offset l source n,
      (scan p.asciiOnly s offset last l).answer source p.asciiOnly n true ≠ .ok .needsInput := by
    intro s last offset l source n
    cases scan p.asciiOnly s offset last l with
    | stuck o => exact fun h => by cases h
    | finished last => exact fun h => hlast last (Except.ok.inj h)
    | reached s last => exact fun h => hlast _ (Except.ok.inj h)
  rw [← matchAt_min, matchAt_eq p w (Nat.min_le_right _ _)]
  split
  · split
    · exact fun h => by cases h
    · exact hscan _ _ _ _ _ _
  · exact hscan _ _ _ _ _ _

end Pattern

end StreamParser
