import StreamParser.Proofs.Pattern.Walk

/-!
# Patterns that leave nothing behind

A pattern is *exhaustive* if where one of its matches ends there is nothing more for it to match.  So
to skip what it matches once more skips nothing.

* `Pattern.IsLoop set e` says that a scan for `e` comes back to where it began with each character of
  `set`, and may end there.  `IsLoop.matchAt_cases`: a match is empty, or it goes on after a character
  as from the beginning.
* `IsLoop.isExhaustive`: so it goes on as long as it can.  `isLoop_star`: the greedy repetition of a
  set of characters is such a loop.
-/

namespace StreamParser

namespace Pattern

open Scan

/-- Where a match ends, the pattern matches the empty text or nothing, and this does not depend on
what follows. -/
def IsExhaustive (p : Pattern) : Prop :=
  ∀ w start stop atEnd, start ≤ w.length → p.matchAt w start atEnd = .ok (.matched stop) →
    p.matchAt w stop atEnd = .ok (.matched stop) ∨
      p.matchAt w stop atEnd = .ok .noMatch ∧ (stop < w.length ∨ atEnd = true)

/-- A scan for `e` reads a character of `set` and is where it began; and it may end there. -/
structure IsLoop (set : CodePoints) (e : Expr) : Prop where
  lookFree : e.anyLook (fun _ => true) = false
  options_eq : options [e] = [(set, [e])]
  accepts_eq : accepts [e] = true

variable {set : CodePoints} {rest : List Expr} {e : Expr} {p : Pattern} {s : State}

/-! ### Scans that cannot go on -/

/-- The answer is that of the last match, or is put off. -/
def StaysAt (last : Option Nat) (r : Except PatternError MatchStatus) : Prop :=
  r = .ok (.ofLast last) ∨ r = .ok .needsInput

theorem staysAt_reached (h : s.endsMatched = false) (last : Option Nat) (source : String) (n : Nat)
    (atEnd : Bool) :
    StaysAt last ((Progress.reached s last).answer source false n atEnd) := by
  have hfinal : finalEnd s last n = last := by
    unfold finalEnd
    rw [h]
    rfl
  unfold StaysAt
  simp only [Progress.answer, hfinal]
  split
  · exact .inl rfl
  · exact .inr rfl

/-- Without threads nothing more is matched. -/
theorem staysAt_of_threads (h : s.threads = []) (source : String) (n offset : Nat) (atEnd : Bool)
    (last : Option Nat) (l : List UInt8) :
    StaysAt last ((scan false s offset last l).answer source false n atEnd) := by
  have hbefore : ∀ next, s.threadsBefore next = [] := by
    intro next
    unfold State.threadsBefore
    rw [h]
    rfl
  cases l with
  | nil =>
    refine staysAt_reached ?_ last source n atEnd
    unfold State.endsMatched
    rw [hbefore]
    rfl
  | cons b l =>
    have hdies : s.diesAt false b = true := by
      unfold State.diesAt State.read
      rw [hbefore]
      rfl
    rw [scan_cons_of_diesAt hdies]
    exact .inl rfl

/-- In the middle of a character a scan stays at the last match, or it comes to the end of the
character. -/
theorem scan_inside_cases (hrest : ∀ e ∈ rest, e.anyLook (fun _ => true) = false) (source : String)
    (n : Nat) (atEnd : Bool) {lead : Utf8.Lead} (hs : s.threads = [.inside lead set rest])
    (offset : Nat) (last : Option Nat) (l : List UInt8) :
    StaysAt last ((scan false s offset last l).answer source false n atEnd) ∨
      ∃ l₁ l₂, l = l₁ ++ l₂ ∧ ∃ s' : State, s'.IsAt rest ∧
        scan false s offset last l = scan false s' (offset + l₁.length) last l₂ := by
  have hfree : ∀ {lead : Utf8.Lead} {s : State}, s.threads = [.inside lead set rest] →
      LookFreeState s := by
    intro lead s hs t ht
    rw [hs] at ht
    rw [List.mem_singleton.1 ht]
    exact hrest
  induction l generalizing s lead offset with
  | nil =>
    refine .inl (staysAt_reached ?_ last source n atEnd)
    unfold State.endsMatched
    rw [threadsBefore_of_lookFree (hfree hs), hs]
    rfl
  | cons b l ih =>
    have hread : s.read b = ((Thread.readInto (some lead) set rest b).toList, false) := by
      unfold State.read
      rw [threadsBefore_of_lookFree (hfree hs), hs]
      simp only [State.readAll, List.takeWhile, Thread.isDone, List.any, Bool.not_false,
        List.filterMap, Thread.read, Bool.or_self]
      cases Thread.readInto (some lead) set rest b <;> rfl
    cases hu : Thread.readInto (some lead) set rest b with
    | none =>
      have hdies : s.diesAt false b = true := by
        unfold State.diesAt
        rw [hread, hu]
        rfl
      rw [scan_cons_of_diesAt hdies]
      exact .inl (.inl rfl)
    | some u =>
      rw [hu] at hread
      have hscan := scan_cons_of_read hread offset last l
      simp only [Bool.false_eq_true, if_false] at hscan
      rw [hscan]
      unfold Thread.readInto at hu
      split at hu
      · split at hu <;> cases hu
        exact .inr ⟨[b], l, rfl, _, State.isAt_arrive hrest _ _, rfl⟩
      · split at hu <;> cases hu
        rcases ih (s := State.arrive (some b) [.inside _ set rest] false) rfl (offset + 1) with
          hstays | ⟨l₁, l₂, rfl, s', hs', hgoes⟩
        · exact .inl hstays
        · refine .inr ⟨b :: l₁, l₂, rfl, s', hs', ?_⟩
          rw [hgoes, List.length_cons, Nat.add_assoc, Nat.add_comm 1]
      · cases hu

/-! ### Loops -/

/-- Where a match may end, the answer does not depend on where the last one ended. -/
theorem answer_of_accepts (hs : s.IsAt rest) (ha : accepts rest = true) (source : String)
    (n offset : Nat) (atEnd : Bool) (last last' : Option Nat) (l : List UInt8) :
    (scan false s offset last l).answer source false n atEnd =
      (scan false s offset last' l).answer source false n atEnd := by
  have hread : ∀ b, (s.read b).2 = true := by
    intro b
    rw [hs.read_eq]
    exact ha
  cases l with
  | nil =>
    have hfinal : ∀ last, finalEnd s last n = some n := by
      intro last
      unfold finalEnd
      rw [hs.endsMatched_eq, ha]
      rfl
    have hlives : ∀ b, s.diesAt false b = false := by
      intro b
      unfold State.diesAt
      rw [hread b]
      simp
    simp only [scan, Progress.answer, hfinal, isSettled, hlives, Bool.false_eq_true, if_false]
  | cons b l =>
    have hstep : s.step false b = some (State.arrive (some b) (s.read b).1 true) := by
      rw [← hread b]
      rfl
    have hmatched : (State.arrive (some b) (s.read b).1 true).matched = true := rfl
    simp only [scan, hstep, hmatched, if_true]

/-- A scan that is back where it began goes on as a match does. -/
theorem answer_of_isAt (hp : p.IsLookFree) (ha : accepts [p.expr] = true) (hs : s.IsAt [p.expr])
    (offset : Nat) (atEnd : Bool) (last : Option Nat) (l : List UInt8) :
    (scan false s offset last l).answer p.source false (offset + l.length) atEnd =
      (p.matchAt l 0 atEnd).map (MatchStatus.shift offset) := by
  have hinit := hp.isAt_init
  rw [answer_of_accepts hs ha _ _ _ _ _ none, hp.matchAt_start,
    answer_congr hs.isLookFree hinit.isLookFree (hs.threads_eq.trans hinit.threads_eq.symm)]
  exact answer_shift offset (State.init none p.expr) p.source l.length 0 atEnd none l

/-- A loop matches the empty text, or waits, or goes on after a character as from the beginning. -/
theorem IsLoop.matchAt_cases (hloop : IsLoop set p.expr) (l : List UInt8) (atEnd : Bool) :
    StaysAt (some 0) (p.matchAt l 0 atEnd) ∨
      ∃ l₁ l₂, l = l₁ ++ l₂ ∧ l₁ ≠ [] ∧
        p.matchAt l 0 atEnd = (p.matchAt l₂ 0 atEnd).map (MatchStatus.shift l₁.length) := by
  have hp : p.IsLookFree := hloop.lookFree
  have hinit := hp.isAt_init
  rw [hp.matchAt_start]
  cases l with
  | nil =>
    have hfinal : finalEnd (State.init none p.expr) none 0 = some 0 := by
      unfold finalEnd
      rw [hinit.endsMatched_eq, hloop.accepts_eq]
      rfl
    refine .inl ?_
    unfold StaysAt
    simp only [scan, Progress.answer, List.length_nil, hfinal]
    split
    · exact .inl rfl
    · exact .inr rfl
  | cons b l =>
    -- the only way on is to read a character of the set
    have hread : (State.init none p.expr).read b =
        ((Thread.readInto none set [p.expr] b).toList, true) := by
      rw [hinit.read_eq, hloop.options_eq, hloop.accepts_eq]
      cases hb : set.lets b with
      | true =>
        simp only [List.filter, hb, List.filterMap]
        cases Thread.readInto none set [p.expr] b <;> rfl
      | false =>
        rw [readInto_of_not_lets hb]
        simp only [List.filter, hb, List.filterMap, Option.toList]
    cases hu : Thread.readInto none set [p.expr] b with
    | none =>
      rw [hu] at hread
      have hstep : (State.init none p.expr).step false b =
          some (State.arrive (some b) [] true) := by
        unfold State.step State.isStuckAt
        rw [hread]
        rfl
      have hmatched : (State.arrive (some b) [] true).matched = true := rfl
      simp only [scan, hstep, hmatched, if_true]
      exact .inl (staysAt_of_threads rfl _ _ _ _ _ _)
    | some u =>
      rw [hu] at hread
      have hscan := scan_cons_of_read hread 0 none l
      simp only [if_true, Nat.zero_add] at hscan
      rw [hscan]
      have hrest : ∀ e ∈ [p.expr], e.anyLook (fun _ => true) = false := hinit.lookFree
      unfold Thread.readInto at hu
      split at hu
      · split at hu <;> cases hu
        have hback := answer_of_isAt hp hloop.accepts_eq
          (State.isAt_arrive hrest (some b) true) 1 atEnd (some 0) l
        rw [Nat.add_comm] at hback
        exact .inr ⟨[b], l, rfl, List.cons_ne_nil _ _, hback⟩
      · split at hu <;> cases hu
        rcases scan_inside_cases hrest p.source (b :: l).length atEnd
          (s := State.arrive (some b) [.inside _ set [p.expr]] true) rfl 1 (some 0) l with
          hstays | ⟨l₁, l₂, rfl, s', hs', hgoes⟩
        · exact .inl hstays
        · have hback := answer_of_isAt hp hloop.accepts_eq hs' (1 + l₁.length) atEnd (some 0) l₂
          have hlength : (b :: (l₁ ++ l₂)).length = 1 + l₁.length + l₂.length := by
            rw [List.length_cons, List.length_append]
            omega
          refine .inr ⟨b :: l₁, l₂, rfl, List.cons_ne_nil _ _, ?_⟩
          rw [hgoes, hlength, hback, List.length_cons, Nat.add_comm]
      · cases hu

/-- Where the match of a loop ends, it matches the empty text. -/
theorem IsLoop.matchAt_drop (hloop : IsLoop set p.expr) {l : List UInt8} {atEnd : Bool} {k : Nat}
    (h : p.matchAt l 0 atEnd = .ok (.matched k)) :
    p.matchAt (l.drop k) 0 atEnd = .ok (.matched 0) := by
  induction hn : l.length using Nat.strongRecOn generalizing l k with
  | ind n ih =>
    rcases hloop.matchAt_cases l atEnd with (hend | hwaits) | ⟨l₁, l₂, rfl, hne, hgoes⟩
    · rw [hend] at h
      cases h
      exact hend
    · rw [hwaits] at h
      cases h
    · rw [hgoes] at h
      rcases hrest : p.matchAt l₂ 0 atEnd with e | st <;> rw [hrest] at h
      · cases h
      · cases st <;> cases h
        have hlt : l₂.length < n := by
          have := List.length_pos_of_ne_nil hne
          rw [List.length_append] at hn
          omega
        rw [← List.drop_drop, List.drop_left]
        exact ih _ hlt hrest rfl

theorem IsLoop.isExhaustive (hloop : IsLoop set p.expr) : p.IsExhaustive := by
  have hp : p.Streamable := IsLookFree.streamable hloop.lookFree
  intro w start stop atEnd hs h
  obtain ⟨hle, hstop⟩ := matchAt_le hs h
  obtain ⟨k, rfl⟩ := Nat.exists_eq_add_of_le hle
  have hmatch := (hp.matchAt_iff (m := .matched k) hs).1 h
  have hdrop := hloop.matchAt_drop hmatch
  rw [List.drop_drop] at hdrop
  exact .inl ((hp.matchAt_iff (m := .matched 0) hstop).2 hdrop)

/-- A character of the set is read first, or else the match ends. -/
theorem places_star (set : CodePoints) :
    places [.rep true 0 none (.chars set)] =
      [.ofList [.rep true 0 none (.chars set)],
        .ofList [.chars set, .rep true 0 none (.chars set)], .ofList []] := by
  simp [places, spread, follow, Thread.ways, Thread.ofList, Thread.weight, Expr.size]

/-- The greedy repetition of a set of characters. -/
theorem isLoop_star (set : CodePoints) : IsLoop set (.rep true 0 none (.chars set)) where
  lookFree := rfl
  options_eq := by
    unfold options
    rw [places_star]
    rfl
  accepts_eq := by
    unfold accepts
    rw [places_star]
    rfl

end Pattern

end StreamParser
