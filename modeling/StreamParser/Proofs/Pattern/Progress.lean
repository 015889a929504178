import StreamParser.Pattern
import StreamParser.Proofs.Pattern.Threads

/-!
# How far a scan comes

`Pattern.matchAt` looks at the byte before the place where it starts, scans the bytes from there on,
and reads its answer off the place where the scan stops.  This file takes the three apart:

* `matchAt_eq` is the match as a function of what the scan has come to (`Progress.answer`);
* `scan_append` continues a scan over more bytes;
* `scan_induction` is the principle by which a property of the places of a scan is carried through
  it, and `matchAt_le` is its first use: a match ends within the window.
-/

namespace StreamParser

namespace Pattern

open Scan

/-! ### The answer of a scan -/

/-- Where the last match ends if the input ends here, after `length` bytes. -/
def finalEnd (s : State) (last : Option Nat) (length : Nat) : Option Nat :=
  if s.endsMatched then some length else last

/-- The answer at the place where a scan of a window of `length` bytes stops. -/
def Progress.answer (source : String) (asciiOnly : Bool) (length : Nat) (atEnd : Bool) :
    Progress → Except PatternError MatchStatus
  | .stuck offset => .error (.unsupported source offset)
  | .finished last => .ok (.ofLast last)
  | .reached s last =>
    if atEnd || isSettled asciiOnly s last (finalEnd s last length) length then
      .ok (.ofLast (finalEnd s last length))
    else .ok .needsInput

/-- The byte before a place in a window. -/
def byteBefore (window : List UInt8) (start : Nat) : Option UInt8 :=
  if start = 0 then none else window[start - 1]?

/-- Some assertion of the pattern asks for words of all letters. -/
def asciiOnly (p : Pattern) : Bool := p.expr.anyLook Look.isUnicodeWord

/-- What a pattern that judges ASCII alone reports when it is to start after the byte `b`. -/
def startError (p : Pattern) (start : Nat) (b : UInt8) : PatternError :=
  .unbuildable p.source
    ("quit search after observing byte \\x" ++ hexByte b ++ " at offset " ++ toString (start - 1))

theorem matchAt_eq (p : Pattern) (window : List UInt8) {start : Nat} (hs : start ≤ window.length)
    (atEnd : Bool) :
    p.matchAt window start atEnd =
      match byteBefore window start with
      | some b =>
        if p.asciiOnly && 0x80 ≤ b then .error (p.startError start b)
        else (scan p.asciiOnly (State.init (some b) p.expr) start none (window.drop start)).answer
          p.source p.asciiOnly window.length atEnd
      | none => (scan p.asciiOnly (State.init none p.expr) start none (window.drop start)).answer
          p.source p.asciiOnly window.length atEnd := by
  unfold matchAt byteBefore
  simp only [Nat.min_eq_left hs]
  generalize (if start = 0 then none else window[start - 1]?) = before
  cases before with
  | none => rfl
  | some b => rfl

theorem byteBefore_append (w c : List UInt8) {start : Nat} (hs : start ≤ w.length) :
    byteBefore (w ++ c) start = byteBefore w start := by
  unfold byteBefore
  split
  · rfl
  · exact List.getElem?_append_left (by omega)

/-- A pattern that can start at all is scanned in the window and in all that begin with it. -/
theorem matchAt_append_eq {p : Pattern} {w : List UInt8} {start : Nat} {atEnd : Bool}
    {st : MatchStatus} (hs : start ≤ w.length) (h : p.matchAt w start atEnd = .ok st)
    (c : List UInt8) (atEnd' : Bool) :
    p.matchAt (w ++ c) start atEnd' =
      (scan p.asciiOnly (State.init (byteBefore w start) p.expr) start none
        (w.drop start ++ c)).answer p.source p.asciiOnly (w.length + c.length) atEnd' := by
  have hs' : start ≤ (w ++ c).length := by
    rw [List.length_append]
    omega
  rw [matchAt_eq p (w ++ c) hs', byteBefore_append w c hs, List.drop_append_of_le_length hs,
    List.length_append]
  rw [matchAt_eq p w hs] at h
  cases hb : byteBefore w start with
  | none => rfl
  | some b =>
    rw [hb] at h
    simp only at h ⊢
    split at h
    · cases h
    · rw [if_neg ‹_›]

/-- A start behind the window counts as its end. -/
theorem matchAt_min (p : Pattern) (window : List UInt8) (start : Nat) (atEnd : Bool) :
    p.matchAt window (min start window.length) atEnd = p.matchAt window start atEnd := by
  unfold matchAt
  simp only [Nat.min_assoc, Nat.min_self]

/-! ### Scanning on -/

variable {asciiOnly : Bool}

theorem scan_append (s : State) (offset : Nat) (last : Option Nat) (l c : List UInt8) :
    scan asciiOnly s offset last (l ++ c) =
      match scan asciiOnly s offset last l with
      | .reached s' last' => scan asciiOnly s' (offset + l.length) last' c
      | stopped => stopped := by
  induction l generalizing s offset last with
  | nil => rfl
  | cons b l ih =>
    simp only [List.cons_append, scan, List.length_cons, Nat.add_comm l.length 1, ← Nat.add_assoc]
    cases hs : s.step asciiOnly b with
    | none => rfl
    | some s' =>
      by_cases hm : s'.matched = true
      · simp only [hm, if_true]
        exact ih s' (offset + 1) (some offset)
      · by_cases hd : s'.isDead = true
        · simp only [hm, hd, if_true, Bool.false_eq_true, if_false]
        · simp only [hm, hd, Bool.false_eq_true, if_false]
          exact ih s' (offset + 1) last

/-- A scan ends before a byte that leads to a dead state. -/
theorem scan_cons_of_diesAt {s : State} {b : UInt8} (h : s.diesAt asciiOnly b = true)
    (offset : Nat) (last : Option Nat) (l : List UInt8) :
    scan asciiOnly s offset last (b :: l) = .finished last := by
  rw [State.diesAt_eq, Option.any_eq_true] at h
  obtain ⟨s', hs, hd⟩ := h
  have hm : s'.matched = false := by
    unfold State.isDead at hd
    simpa using (Bool.and_eq_true_iff.1 hd).1
  simp only [scan, hs, hm, hd, if_true, Bool.false_eq_true, if_false]

/-- What is true at the start of a scan and kept by each of its steps is true where it stops: `I`
speaks of the bytes that were read, the state, and the end of the last match. -/
theorem scan_induction {I : List UInt8 → State → Option Nat → Prop} {start : Nat}
    (step : ∀ read s last b s', I read s last → s.step asciiOnly b = some s' →
      I (read ++ [b]) s' (if s'.matched then some (start + read.length) else last))
    {read : List UInt8} {s : State} {last : Option Nat} (h : I read s last) (l : List UInt8) :
    match scan asciiOnly s (start + read.length) last l with
    | .stuck _ => True
    | .finished last' => ∃ k s', k ≤ l.length ∧ I (read ++ l.take k) s' last'
    | .reached s' last' => I (read ++ l) s' last' := by
  induction l generalizing read s last with
  | nil => simpa [scan] using h
  | cons b l ih =>
    have hread : ∀ k, read ++ [b] ++ l.take k = read ++ (b :: l).take (k + 1) := by simp
    have hoff : start + (read ++ [b]).length = start + read.length + 1 := by
      simp [Nat.add_assoc]
    unfold scan
    cases hs : s.step asciiOnly b with
    | none => trivial
    | some s' =>
      have hI := step read s last b s' h hs
      -- the rest of the scan, whatever the last match is now
      have hrest : ∀ last', I (read ++ [b]) s' last' →
          match scan asciiOnly s' (start + read.length + 1) last' l with
          | .stuck _ => True
          | .finished last'' =>
            ∃ k s'', k ≤ (b :: l).length ∧ I (read ++ (b :: l).take k) s'' last''
          | .reached s'' last'' => I (read ++ b :: l) s'' last'' := by
        intro last' hI'
        have := ih hI'
        rw [hoff] at this
        split at this
        · trivial
        · obtain ⟨k, s'', hk, hI''⟩ := this
          exact ⟨k + 1, s'', Nat.succ_le_succ hk, by rw [← hread]; exact hI''⟩
        · simpa using this
      simp only
      by_cases hm : s'.matched = true
      · simp only [hm, if_true] at hI ⊢
        exact hrest _ hI
      · simp only [hm, Bool.false_eq_true, if_false] at hI ⊢
        by_cases hd : s'.isDead = true
        · simp only [hd, if_true]
          exact ⟨1, s', by simp, by simpa using hI⟩
        · simp only [hd, Bool.false_eq_true, if_false]
          exact hrest _ hI

/-- Where a match ends, in terms of what holds at all places of the scan: at the end of the window,
if the threads that are left there match at the end of the input, or else where the last match that
was seen ends. -/
theorem places_of_matched {p : Pattern} {window : List UInt8} {start stop : Nat} {atEnd : Bool}
    (hs : start ≤ window.length) (h : p.matchAt window start atEnd = .ok (.matched stop))
    {I : List UInt8 → State → Option Nat → Prop}
    (init : ∀ before, I [] (State.init before p.expr) none)
    (step : ∀ read s last b s', I read s last → s.step p.asciiOnly b = some s' →
      I (read ++ [b]) s' (if s'.matched then some (start + read.length) else last)) :
    (∃ s last, I (window.drop start) s last ∧ s.endsMatched = true ∧ stop = window.length) ∨
      ∃ k s, k ≤ (window.drop start).length ∧ I ((window.drop start).take k) s (some stop) := by
  have ofScan : ∀ before, (scan p.asciiOnly (State.init before p.expr) start none
        (window.drop start)).answer p.source p.asciiOnly window.length atEnd =
        .ok (.matched stop) →
      (∃ s last, I (window.drop start) s last ∧ s.endsMatched = true ∧ stop = window.length) ∨
        ∃ k s, k ≤ (window.drop start).length ∧ I ((window.drop start).take k) s (some stop) := by
    intro before h
    have hI := scan_induction step (init before) (window.drop start)
    simp only [List.length_nil, Nat.add_zero, List.nil_append] at hI
    have ofLast : ∀ {last : Option Nat}, MatchStatus.ofLast last = .matched stop →
        last = some stop := by
      intro last hl
      cases last with
      | none => cases hl
      | some n => cases hl; rfl
    cases hscan : scan p.asciiOnly (State.init before p.expr) start none (window.drop start) with
    | stuck offset => rw [hscan] at h; cases h
    | finished last =>
      rw [hscan] at h hI
      obtain ⟨k, s, hk, hI⟩ := hI
      rw [ofLast (Except.ok.inj h)] at hI
      exact .inr ⟨k, s, hk, hI⟩
    | reached s last =>
      rw [hscan] at h hI
      simp only at hI
      unfold Progress.answer at h
      simp only at h
      split at h
      · have hfinal := ofLast (Except.ok.inj h)
        unfold finalEnd at hfinal
        split at hfinal
        · exact .inl ⟨s, last, hI, ‹_›, (Option.some.inj hfinal).symm⟩
        · exact .inr ⟨_, s, Nat.le_refl _, by rw [List.take_length, ← hfinal]; exact hI⟩
      · cases h
  rw [matchAt_eq p window hs] at h
  split at h
  · split at h
    · cases h
    · exact ofScan _ h
  · exact ofScan _ h

/-- A match ends within the window. -/
theorem matchAt_le {p : Pattern} {window : List UInt8} {start stop : Nat} {atEnd : Bool}
    (hs : start ≤ window.length) (h : p.matchAt window start atEnd = .ok (.matched stop)) :
    start ≤ stop ∧ stop ≤ window.length := by
  have hlen : (window.drop start).length = window.length - start := List.length_drop
  have places := places_of_matched hs h
    (I := fun read _ last => ∀ n, last = some n → start ≤ n ∧ n ≤ start + read.length)
    (fun _ n hn => by cases hn)
    (fun read s last b s' hI _ n hn => by
      rw [List.length_append, List.length_singleton]
      split at hn
      · cases hn; omega
      · have := hI n hn; omega)
  rcases places with ⟨s, last, hI, -, rfl⟩ | ⟨k, s, hk, hI⟩
  · omega
  · have := hI stop rfl
    rw [List.length_take] at this
    omega

end Pattern

end StreamParser
