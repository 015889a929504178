import StreamParser.Proofs.Pattern.Progress

/-!
# Settled answers

A match against a window that is not the end of the input is *settled* if it answers anything but
that more input is needed.  A settled answer should stand whatever follows the window.

* `answer_of_isSettled` says what can become of an answer that was settled at the end of the window.
  The look ahead is two bytes deep and does not ask what the pattern makes of the end of the input
  one byte on; so one thing can go wrong: the input ends after one more byte, and the pattern
  matches up to there.
* `settled_answer_stands_iff` is the exact condition: the answer stands unless that happens.  It
  never happens to a pattern to whose assertions the end of the input looks like a line feed, or
  like a carriage return (`Pattern.IsBlindToEnd`).
-/

namespace StreamParser

/-! ### Assertions that tell the end of the input from the end of a line -/

namespace Look

/-- The assertion may tell the end of the input from a line feed. -/
def tellsLineFeed : Look → Bool
  | textEnd => true
  | crlfLineStart => true
  | crlfLineEnd => true
  | _ => false

/-- The assertion may tell the end of the input from a carriage return. -/
def tellsReturn : Look → Bool
  | textEnd => true
  | lineEnd => true
  | _ => false

theorem holds_lineFeed {l : Look} (h : l.tellsLineFeed = false) (before : Option UInt8) :
    l.holds before none = l.holds before (some 0x0A) := by
  cases l with
  | textStart => rfl
  | textEnd => cases h
  | lineStart => rfl
  | lineEnd => rfl
  | crlfLineStart => cases h
  | crlfLineEnd => cases h
  | word unicode edge => rfl

theorem holds_return {l : Look} (h : l.tellsReturn = false) (before : Option UInt8) :
    l.holds before none = l.holds before (some 0x0D) := by
  cases l with
  | textStart => rfl
  | textEnd => cases h
  | lineStart => rfl
  | lineEnd => cases h
  | crlfLineStart => rfl
  | crlfLineEnd => rfl
  | word unicode edge => rfl

end Look

/-- To all assertions of the pattern the end of the input looks like a line feed, or to all of them
like a carriage return. -/
def Pattern.IsBlindToEnd (p : Pattern) : Prop :=
  p.expr.anyLook Look.tellsLineFeed = false ∨ p.expr.anyLook Look.tellsReturn = false

/-! ### States from which every byte leads to death -/

namespace Scan.State

variable {asciiOnly : Bool}

theorem diesAt_of_isBarren {s : State} (h : s.isBarren asciiOnly = true) (b : UInt8) :
    s.diesAt asciiOnly b = true := by
  unfold isBarren at h
  rcases Bool.or_eq_true_iff.1 h with h | h
  · obtain ⟨ht, ha⟩ := Bool.and_eq_true_iff.1 h
    have ht : s.threads = [] := List.isEmpty_iff.1 ht
    have ha : asciiOnly = false := by simpa using ha
    simp [diesAt, isStuckAt, read, readAll, threadsBefore, ht, ha]
  · have := List.all_eq_true.1 h b.toNat (List.mem_range.2 b.toNat_lt)
    rwa [UInt8.ofNat_toNat] at this

/-- If the end of the input looks like a byte at which the scan dies, nothing ends there. -/
theorem endsMatched_of_diesAt {s : State} {b : UInt8} (h : s.diesAt asciiOnly b = true)
    (hb : s.threadsBefore none = s.threadsBefore (some b)) : s.endsMatched = false := by
  unfold diesAt read readAll at h
  simp only [Bool.and_eq_true, Bool.not_eq_true'] at h
  unfold endsMatched
  rw [hb]
  exact h.1.2

end Scan.State

namespace Pattern

open Scan

variable {asciiOnly : Bool}

/-- What it means for an answer to be settled, for each byte that may come next. -/
theorem cases_of_isSettled {s : State} {last final : Option Nat} {n : Nat}
    (h : isSettled asciiOnly s last final n = true) (b : UInt8) :
    (s.diesAt asciiOnly b = true ∧ final = last) ∨
      ∃ next, s.step asciiOnly b = some next ∧ next.matched = true ∧ final = some n ∧
        next.isBarren asciiOnly = true := by
  have hb := List.all_eq_true.1 h b.toNat (List.mem_range.2 b.toNat_lt)
  simp only [UInt8.ofNat_toNat] at hb
  split at hb
  · exact .inl ⟨‹_›, eq_of_beq hb⟩
  · obtain ⟨next, hs, hn⟩ := (Option.any_eq_true _ _).1 hb
    simp only [Bool.and_eq_true] at hn
    exact .inr ⟨next, hs, hn.1.1, eq_of_beq hn.1.2, hn.2⟩

/-- All bytes lead to death from a barren state, so its answer is settled unless the end of the input
would make a difference. -/
theorem isSettled_of_isBarren {s : State} (h : s.isBarren asciiOnly = true)
    (last final : Option Nat) (n : Nat) :
    isSettled asciiOnly s last final n = (final == last) := by
  rw [Bool.eq_iff_iff]
  unfold isSettled
  simp only [State.diesAt_of_isBarren h, if_true, List.all_eq_true]
  exact ⟨fun ha => ha 0 (by simp), fun he _ _ => he⟩

/-- What becomes of an answer that is settled at the end of a window when the scan goes on over `c`:
the same, or else `c` is a single byte with which the pattern matches one byte more, but only if the
input ends there. -/
theorem answer_of_isSettled {s : State} {last : Option Nat} {n : Nat}
    (h : isSettled asciiOnly s last (finalEnd s last n) n = true) (source : String)
    (c : List UInt8) :
    (∀ atEnd, (scan asciiOnly s n last c).answer source asciiOnly (n + c.length) atEnd =
        .ok (.ofLast (finalEnd s last n))) ∨
      finalEnd s last n = some n ∧ ∃ b next, c = [b] ∧ s.step asciiOnly b = some next ∧
        next.isBarren asciiOnly = true ∧ next.endsMatched = true ∧
        ∀ atEnd, (scan asciiOnly s n last c).answer source asciiOnly (n + c.length) atEnd =
          .ok (if atEnd then .matched (n + 1) else .needsInput) := by
  cases c with
  | nil =>
    refine .inl fun atEnd => ?_
    simp only [scan, Progress.answer, List.length_nil, Nat.add_zero, h, Bool.or_true, if_true]
  | cons b rest =>
    rcases cases_of_isSettled h b with ⟨hdies, hfinal⟩ | ⟨next, hs, hm, hfinal, hbarren⟩
    · refine .inl fun atEnd => ?_
      rw [scan_cons_of_diesAt hdies, hfinal]
      rfl
    · have hscan : scan asciiOnly s n last (b :: rest) =
          scan asciiOnly next (n + 1) (some n) rest := by
        simp only [scan, hs, hm, if_true]
      rw [hscan, hfinal]
      -- from here every byte leads to death; only the end of the input may still match
      cases rest with
      | cons b' rest =>
        refine .inl fun atEnd => ?_
        rw [scan_cons_of_diesAt (State.diesAt_of_isBarren hbarren b')]
        rfl
      | nil =>
        simp only [scan, Progress.answer, List.length_singleton, isSettled_of_isBarren hbarren]
        by_cases he : next.endsMatched = true
        · have hend : finalEnd next (some n) (n + 1) = some (n + 1) := if_pos he
          refine .inr ⟨trivial, b, next, rfl, hs, hbarren, he, fun atEnd => ?_⟩
          cases atEnd <;> simp [hend, MatchStatus.ofLast]
        · have hend : finalEnd next (some n) (n + 1) = some n := if_neg he
          exact .inl fun atEnd => by simp [hend]

/-- A pattern that is blind to the end of the input does not match there alone: the end looks like a
byte, and every byte leads to death. -/
theorem endsMatched_of_isBlindToEnd {p : Pattern} (hp : p.IsBlindToEnd) {s : State}
    (hl : ∀ kind, p.expr.anyLook kind = false → s.Lacks kind)
    (h : s.isBarren asciiOnly = true) : s.endsMatched = false := by
  rcases hp with hp | hp
  · exact State.endsMatched_of_diesAt (State.diesAt_of_isBarren h 0x0A)
      (State.threadsBefore_congr (hl _ hp) fun l hk => Look.holds_lineFeed hk s.before)
  · exact State.endsMatched_of_diesAt (State.diesAt_of_isBarren h 0x0D)
      (State.threadsBefore_congr (hl _ hp) fun l hk => Look.holds_return hk s.before)

/-! ### The answer for a longer window -/

/-- A kind of assertions that is absent from a pattern is absent from the states of its scans. -/
theorem lacks_of_reached {e : Expr} {kind : Look → Bool} (h : e.anyLook kind = false)
    {before : Option UInt8} {start : Nat} {l : List UInt8} {s : State} {last : Option Nat}
    (hs : scan asciiOnly (State.init before e) start none l = .reached s last) : s.Lacks kind := by
  have hI := @scan_induction asciiOnly (fun _ s _ => s.Lacks kind) start
    (fun _ _ _ _ _ hI hstep => State.lacks_step hI hstep) [] _ none (State.lacks_init h before) l
  rw [List.length_nil, Nat.add_zero, hs] at hI
  exact hI

/-- The answer of a scan over a longer window, where that of the scan over the window is settled. -/
theorem answer_append_cases {p : Pattern} {before : Option UInt8} {start n : Nat}
    {l : List UInt8} {st : MatchStatus} (hlen : start + l.length = n)
    (h : (scan p.asciiOnly (State.init before p.expr) start none l).answer p.source p.asciiOnly n
      false = .ok st) (hn : st ≠ .needsInput) (c : List UInt8) :
    (∀ atEnd, (scan p.asciiOnly (State.init before p.expr) start none (l ++ c)).answer p.source
        p.asciiOnly (n + c.length) atEnd = .ok st) ∨
      ¬ p.IsBlindToEnd ∧ st = .matched n ∧ ∃ b, c = [b] ∧
        ∀ atEnd, (scan p.asciiOnly (State.init before p.expr) start none (l ++ c)).answer p.source
          p.asciiOnly (n + c.length) atEnd =
            .ok (if atEnd then .matched (n + 1) else .needsInput) := by
  rw [scan_append, hlen]
  cases hscan : scan p.asciiOnly (State.init before p.expr) start none l with
  | stuck offset => rw [hscan] at h; cases h
  | finished last => rw [hscan] at h; exact .inl fun _ => h
  | reached s last =>
    rw [hscan] at h
    simp only [Progress.answer, Bool.false_or] at h
    split at h
    · rename_i hset
      obtain rfl := Except.ok.inj h
      rcases answer_of_isSettled hset p.source c with
        hc | ⟨hfinal, b, next, hb, hstep, hbarren, hend, hc⟩
      · exact .inl hc
      · refine .inr ⟨fun hblind => ?_, by rw [hfinal]; rfl, b, hb, hc⟩
        have := endsMatched_of_isBlindToEnd hblind
          (fun kind hk => State.lacks_step (lacks_of_reached hk hscan) hstep) hbarren
        rw [hend] at this
        cases this
    · exact absurd (Except.ok.inj h).symm hn

/-- A settled answer stands when the window grows by `c`, unless `c` is a single byte with which the
pattern matches one byte more at the end of the input. -/
theorem matchAt_append_cases {p : Pattern} {w : List UInt8} {start : Nat} {st : MatchStatus}
    (hs : start ≤ w.length) (h : p.matchAt w start false = .ok st) (hn : st ≠ .needsInput)
    (c : List UInt8) :
    (∀ atEnd, p.matchAt (w ++ c) start atEnd = .ok st) ∨
      ¬ p.IsBlindToEnd ∧ st = .matched w.length ∧ ∃ b, c = [b] ∧
        ∀ atEnd, p.matchAt (w ++ c) start atEnd =
          .ok (if atEnd then .matched (w.length + 1) else .needsInput) := by
  have hlen : start + (w.drop start).length = w.length := by
    rw [List.length_drop]
    omega
  have hw := matchAt_append_eq hs h [] false
  simp only [List.append_nil, List.length_nil, Nat.add_zero] at hw
  simp only [matchAt_append_eq hs h c]
  exact answer_append_cases hlen (hw ▸ h) hn c

/-- **When a settled answer stands.**  An answer about a window that is settled, though the input
may go on, is that about every longer window, wherever the input ends: unless exactly one byte
follows and the pattern matches up to the end of the input behind it.  It always stands if the end
of the input looks to the pattern like the end of a line.  A start behind the window counts as its
end. -/
theorem settled_answer_stands_iff (p : Pattern) (w : List UInt8) (start : Nat) (c : List UInt8)
    {st : MatchStatus} (h : p.matchAt w start false = .ok st) (hn : st ≠ .needsInput) :
    ((∀ atEnd, p.matchAt (w ++ c) (min start w.length) atEnd = .ok st) ↔
      ¬ ∃ b, c = [b] ∧
        p.matchAt (w ++ [b]) (min start w.length) true = .ok (.matched (w.length + 1))) ∧
      (p.IsBlindToEnd → ∀ atEnd, p.matchAt (w ++ c) (min start w.length) atEnd = .ok st) := by
  have hs : min start w.length ≤ w.length := Nat.min_le_right _ _
  rw [← matchAt_min] at h
  have hcases := matchAt_append_cases hs h hn c
  refine ⟨⟨fun hall => ?_, fun hno => ?_⟩, fun hblind => ?_⟩
  · rintro ⟨b, rfl, hb⟩
    -- a settled match ends within the window
    have hst := (hall true).symm.trans hb
    rw [Except.ok.inj hst] at h
    have := (matchAt_le hs h).2
    omega
  · rcases hcases with hall | ⟨-, -, b, rfl, hb⟩
    · exact hall
    · exact absurd ⟨b, rfl, hb true⟩ hno
  · rcases hcases with hall | ⟨hno, -⟩
    · exact hall
    · exact absurd hblind hno

/-- The letter `a` and the end of the input, or else nothing. -/
def letterAtEnd : Pattern :=
  ⟨"a\\z|", .alt (.seq (.chars (.single 'a')) (.look .textEnd)) .empty⟩

set_option maxRecDepth 8000 in
/-- Nothing is matched in an empty window, and that is taken for settled; but if the input is the
letter, the letter is matched. -/
theorem letterAtEnd_falls :
    Pattern.compile "a\\z|" = .ok letterAtEnd ∧
      letterAtEnd.matchAt [] 0 false = .ok (.matched 0) ∧
      MatchStatus.matched 0 ≠ .needsInput ∧
      letterAtEnd.matchAt [0x61] 0 true = .ok (.matched 1) ∧
      ¬ ∀ atEnd, letterAtEnd.matchAt [0x61] 0 atEnd = .ok (.matched 0) := by
  have h : letterAtEnd.matchAt [] 0 false = .ok (.matched 0) := by rfl
  have hn : MatchStatus.matched 0 ≠ .needsInput := by decide
  have hlonger : letterAtEnd.matchAt [0x61] 0 true = .ok (.matched 1) := by rfl
  refine ⟨rfl, h, hn, hlonger, fun hall => ?_⟩
  exact (settled_answer_stands_iff letterAtEnd [] 0 [0x61] h hn).1.1 hall ⟨0x61, rfl, hlonger⟩

end Pattern

end StreamParser
