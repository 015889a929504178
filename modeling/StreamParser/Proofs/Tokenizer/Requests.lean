import StreamParser.Proofs.Pattern.Cache
import StreamParser.Proofs.Tokenizer.Whole

/-!
# Requests in a row

* A `Request` is what a client may ask of a tokenizer; `Client.transcript` is what the client is
  told when it asks one thing after the other, with the position after each.
* `Tokenizer.Faithful` is the invariant of a tokenizer that answers as the whole stream does.  Each
  kind of request keeps it (`agrees_rawNext`, `agrees_next`, ...).
* `Tokenizer.transcript_eq_whole`: a fresh tokenizer gives the transcript that a tokenizer with the
  whole stream in memory gives, however the source cuts the stream.
-/

namespace StreamParser

/-- What a client asks.  A mark is told by the number of marks that were set before it. -/
inductive Request
  | next (regex : String)
  | nextPattern (p : Pattern)
  | rawNext (p : Pattern)
  | hasNext (regex : String)
  | mark
  | reset (mark : Nat)
  | release (mark : Nat)
  | commit

/-- What a client is told. -/
inductive Answer
  | token (result : Except TokenError String)
  | told (result : Except TokenError Bool)
  | marked (m : Mark)
  | moved (result : Except TokenError Unit)
  | released (held : Bool)
  | done

/-- Something that requests can be made to. -/
class Respondent (τ : Type) where
  position : τ → Nat
  next : String → τ → Except TokenError String × τ
  nextPattern : Pattern → τ → Except TokenError String × τ
  rawNext : Pattern → τ → Except TokenError String × τ
  hasNext : String → τ → Except TokenError Bool × τ
  mark : τ → Mark × τ
  reset : Mark → τ → Except TokenError Unit × τ
  release : Mark → τ → Bool × τ
  commit : τ → τ

/-- A client, with the marks that it was given. -/
structure Client (τ : Type) where
  respondent : τ
  marks : List Mark

namespace Client

variable {τ : Type} [Respondent τ]

/-- A client that has asked nothing. -/
def start (respondent : τ) : Client τ := ⟨respondent, []⟩

/-- Make a request.  One that is about a mark which the client was never given is not made. -/
def ask (c : Client τ) : Request → Answer × Client τ
  | .next regex =>
    let (r, t) := Respondent.next regex c.respondent
    (.token r, { c with respondent := t })
  | .nextPattern p =>
    let (r, t) := Respondent.nextPattern p c.respondent
    (.token r, { c with respondent := t })
  | .rawNext p =>
    let (r, t) := Respondent.rawNext p c.respondent
    (.token r, { c with respondent := t })
  | .hasNext regex =>
    let (r, t) := Respondent.hasNext regex c.respondent
    (.told r, { c with respondent := t })
  | .mark =>
    let (m, t) := Respondent.mark c.respondent
    (.marked m, ⟨t, c.marks ++ [m]⟩)
  | .reset k =>
    match c.marks[k]? with
    | none => (.done, c)
    | some m =>
      let (r, t) := Respondent.reset m c.respondent
      (.moved r, { c with respondent := t })
  | .release k =>
    match c.marks[k]? with
    | none => (.done, c)
    | some m =>
      let (r, t) := Respondent.release m c.respondent
      (.released r, { c with respondent := t })
  | .commit => (.done, { c with respondent := Respondent.commit c.respondent })

theorem ask_of_none {c : Client τ} {k : Nat} (hk : c.marks[k]? = none) :
    c.ask (.reset k) = (.done, c) ∧ c.ask (.release k) = (.done, c) := by
  simp only [ask, hk, and_self]

theorem ask_of_some {c : Client τ} {k : Nat} {m : Mark} (hk : c.marks[k]? = some m) :
    c.ask (.reset k) = (.moved (Respondent.reset m c.respondent).1,
        { c with respondent := (Respondent.reset m c.respondent).2 }) ∧
      c.ask (.release k) = (.released (Respondent.release m c.respondent).1,
        { c with respondent := (Respondent.release m c.respondent).2 }) := by
  simp only [ask, hk, and_self]

/-- Make requests one after the other: the answers, each with the position after it. -/
def transcript (c : Client τ) : List Request → List (Answer × Nat)
  | [] => []
  | r :: rest =>
    let (answer, c) := c.ask r
    (answer, Respondent.position c.respondent) :: c.transcript rest

end Client

/-- The patterns of a request have no assertions. -/
def Request.IsLookFree : Request → Prop
  | next regex => ∀ p, Pattern.compile regex = .ok p → p.IsLookFree
  | nextPattern p => p.IsLookFree
  | rawNext p => p.IsLookFree
  | hasNext regex => ∀ p, Pattern.compile regex = .ok p → p.IsLookFree
  | _ => True

instance {σ : Type} [Source σ] : Respondent (Tokenizer σ) where
  position := Tokenizer.position
  next regex t := t.next regex
  nextPattern p t := t.nextPattern p
  rawNext p t := t.rawNext p
  hasNext regex t := t.hasNext regex
  mark := Tokenizer.mark
  reset m t := t.reset m
  release m t := t.release m
  commit := Tokenizer.commit

/-! ### The requests of a tokenizer with the whole stream in memory -/

namespace Whole

/-- A tokenizer at the beginning of a stream. -/
def start (stream : List UInt8) (capacity : Nat) (skip : Option Pattern) : Whole :=
  ⟨stream, capacity, skip, 0, [], 0⟩

/-- Skip what is to be skipped.  If it does not match, nothing is skipped. -/
def skipAhead (w : Whole) : Except TokenError Unit × Whole :=
  match w.skip with
  | none => (.ok (), w)
  | some p =>
    match w.rawNext p with
    | (.ok _, w) => (.ok (), w)
    | (.error e, w) => if e.isRecoverable then (.ok (), w) else (.error e, w)

/-- Skip, and consume a token. -/
def nextPattern (w : Whole) (p : Pattern) : Except TokenError String × Whole :=
  match w.skipAhead with
  | (.ok (), w) => w.rawNext p
  | (.error e, w) => (.error e, w)

/-- Skip, and consume a token that matches a regular expression. -/
def next (w : Whole) (regex : String) : Except TokenError String × Whole :=
  match Pattern.compile regex with
  | .ok p => w.nextPattern p
  | .error e => (.error (.pattern e), w)

/-- Skip, and tell whether a token follows that matches a regular expression. -/
def hasNext (w : Whole) (regex : String) : Except TokenError Bool × Whole :=
  match Pattern.compile regex with
  | .error e => (.error (.pattern e), w)
  | .ok p =>
    match w.skipAhead with
    | (.error e, w) => (.error e, w)
    | (.ok (), w) =>
      match w.lookup p with
      | .ok _ => (.ok true, w)
      | .error e => (if e.isRecoverable then .ok false else .error e, w)

/-- Mark the position. -/
def mark (w : Whole) : Mark × Whole :=
  let m : Mark := ⟨w.nextMark, w.position⟩
  (m, { w with marks := w.marks ++ [m], nextMark := w.nextMark + 1 })

/-- Go back to a mark, if it is held. -/
def reset (w : Whole) (m : Mark) : Except TokenError Unit × Whole :=
  if m ∈ w.marks then (.ok (), { w with position := m.offset })
  else (.error (.staleMark m.offset), w)

/-- Give up a mark; whether it was held. -/
def release (w : Whole) (m : Mark) : Bool × Whole :=
  (m ∈ w.marks, { w with marks := w.marks.filter (· ≠ m) })

/-- Give up all marks. -/
def commit (w : Whole) : Whole := { w with marks := [] }

/-! Requests for tokens and going back leave everything but the position as it is. -/

/-- Only the position may differ. -/
def Moves (w w' : Whole) : Prop := ∃ n, w' = { w with position := n }

theorem Moves.trans {w w' w'' : Whole} (h : Moves w w') (h' : Moves w' w'') : Moves w w'' := by
  obtain ⟨n, rfl⟩ := h
  obtain ⟨n', rfl⟩ := h'
  exact ⟨n', rfl⟩

theorem moves_rawNext (w : Whole) (p : Pattern) : Moves w (w.rawNext p).2 := by
  unfold rawNext
  split
  · exact ⟨_, rfl⟩
  · exact ⟨w.position, rfl⟩

theorem moves_skipAhead (w : Whole) : Moves w w.skipAhead.2 := by
  unfold skipAhead
  split
  · exact ⟨w.position, rfl⟩
  · rename_i p hp
    have hnext := moves_rawNext w p
    rcases hr : w.rawNext p with ⟨e | token, w'⟩ <;> rw [hr] at hnext
    · simp only
      split
      · exact hnext
      · exact hnext
    · exact hnext

theorem moves_nextPattern (w : Whole) (p : Pattern) : Moves w (w.nextPattern p).2 := by
  have hskip := moves_skipAhead w
  unfold nextPattern
  rcases hr : w.skipAhead with ⟨e | _, w'⟩ <;> rw [hr] at hskip
  · exact hskip
  · exact hskip.trans (moves_rawNext w' p)

theorem moves_next (w : Whole) (regex : String) : Moves w (w.next regex).2 := by
  unfold next
  split
  · exact moves_nextPattern w _
  · exact ⟨w.position, rfl⟩

theorem moves_hasNext (w : Whole) (regex : String) : Moves w (w.hasNext regex).2 := by
  have hskip := moves_skipAhead w
  unfold hasNext
  split
  · exact ⟨w.position, rfl⟩
  · rename_i p hp
    rcases hr : w.skipAhead with ⟨e | _, w'⟩ <;> rw [hr] at hskip
    · exact hskip
    · simp only
      split
      · exact hskip
      · exact hskip

theorem moves_reset (w : Whole) (m : Mark) : Moves w (w.reset m).2 := by
  unfold reset
  split
  · exact ⟨m.offset, rfl⟩
  · exact ⟨w.position, rfl⟩

instance : Respondent Whole where
  position := position
  next regex w := w.next regex
  nextPattern p w := w.nextPattern p
  rawNext p w := w.rawNext p
  hasNext regex w := w.hasNext regex
  mark := mark
  reset m w := w.reset m
  release m w := w.release m
  commit := commit

end Whole

/-- No mark but `m` itself has the number of `m`. -/
abbrev Mark.Only (m : Mark) (marks : List Mark) : Prop := ∀ n ∈ marks, n.id = m.id → n = m

namespace Tokenizer

variable {σ : Type} [Source σ] {t : Tokenizer σ} {l : List UInt8}

/-! ### Each request -/

/-- The tokenizer answers as the whole stream does. -/
structure Faithful (t : Tokenizer σ) (l : List UInt8) : Prop extends t.Serves l where
  coherent : t.cache.Coherent
  skip_streamable : ∀ p, t.skip = some p → p.Streamable

/-- The tokenizer and the whole stream give the same answer, and still go together. -/
structure Agrees {α : Type} (l : List UInt8) (x : α × Tokenizer σ) (y : α × Whole) : Prop where
  answer_eq : x.1 = y.1
  faithful : x.2.Faithful l
  whole_eq : x.2.whole l = y.2

theorem Faithful.of_sameMarks (h : t.Faithful l) {t' : Tokenizer σ} (ht : t'.Serves l)
    (hs : SameMarks t t') : t'.Faithful l where
  toServes := ht
  coherent := by
    rw [hs.cache_eq]
    exact h.coherent
  skip_streamable p hp := h.skip_streamable p (by rw [← hs.skip_eq, hp])

/-- The answer of the whole stream is told by the tokenizer. -/
theorem Agrees.eq {α : Type} {x : α × Tokenizer σ} {y : α × Whole} (h : Agrees l x y) :
    y = (x.1, x.2.whole l) :=
  Prod.ext h.answer_eq.symm h.whole_eq.symm

theorem agrees_rawNext (h : t.Faithful l) {p : Pattern} (hp : p.Streamable) :
    Agrees l (t.rawNext p) ((t.whole l).rawNext p) := by
  obtain ⟨hserves, hanswer, hwhole⟩ := h.toServes.rawNext hp
  exact ⟨hanswer, h.of_sameMarks hserves (sameMarks_rawNext h.ok p).2, hwhole⟩

theorem agrees_skipAhead (h : t.Faithful l) : Agrees l t.skipAhead (t.whole l).skipAhead := by
  have hskip : (t.whole l).skip = t.skip := rfl
  unfold skipAhead Whole.skipAhead
  rw [hskip]
  cases hs : t.skip with
  | none => exact ⟨rfl, h, rfl⟩
  | some p =>
    have hnext := agrees_rawNext h (h.skip_streamable p hs)
    have hfaithful := hnext.faithful
    simp only [hnext.eq]
    rcases hr : t.rawNext p with ⟨e | token, t'⟩ <;> rw [hr] at hfaithful
    · by_cases he : e.isRecoverable = true
      · simp only [if_pos he]
        exact ⟨rfl, hfaithful, rfl⟩
      · simp only [if_neg he]
        exact ⟨rfl, hfaithful, rfl⟩
    · exact ⟨rfl, hfaithful, rfl⟩

theorem agrees_nextPattern (h : t.Faithful l) {p : Pattern} (hp : p.Streamable) :
    Agrees l (t.nextPattern p) ((t.whole l).nextPattern p) := by
  have hskip := agrees_skipAhead h
  have hfaithful := hskip.faithful
  unfold nextPattern Whole.nextPattern
  rw [hskip.eq]
  rcases hr : t.skipAhead with ⟨e | _, t'⟩ <;> rw [hr] at hfaithful
  · exact ⟨rfl, hfaithful, rfl⟩
  · exact agrees_rawNext hfaithful hp

omit [Source σ] in
/-- A coherent cache answers as the compiler does. -/
theorem pattern_cases (h : t.cache.Coherent) (regex : String) :
    ∃ cache events, (t.cache.get regex).2 = (cache, events) ∧ cache.Coherent ∧
      t.pattern regex = ((Pattern.compile regex).mapError TokenError.pattern,
        { t with cache := cache }.note events) := by
  obtain ⟨hcompile, hcoherent⟩ := h.get regex
  unfold pattern
  rw [← hcompile]
  rcases hget : t.cache.get regex with ⟨e | e, cache, events⟩ <;> rw [hget] at hcoherent
  · exact ⟨cache, events, rfl, hcoherent, rfl⟩
  · exact ⟨cache, events, rfl, hcoherent, rfl⟩

/-- The cache answers as the compiler does. -/
theorem Faithful.pattern (h : t.Faithful l) (regex : String) :
    (t.pattern regex).1 = (Pattern.compile regex).mapError TokenError.pattern ∧
      (t.pattern regex).2.Faithful l ∧ (t.pattern regex).2.whole l = t.whole l := by
  obtain ⟨cache, events, -, hcoherent, hpattern⟩ := pattern_cases h.coherent regex
  have hserves : Serves ({ t with cache := cache }.note events) l :=
    h.toServes.of_eq rfl rfl rfl rfl
  rw [hpattern]
  exact ⟨rfl, ⟨hserves, hcoherent, h.skip_streamable⟩, rfl⟩

theorem agrees_next (h : t.Faithful l) {regex : String}
    (hp : ∀ p, Pattern.compile regex = .ok p → p.Streamable) :
    Agrees l (t.next regex) ((t.whole l).next regex) := by
  obtain ⟨hcompile, hfaithful, hwhole⟩ := h.pattern regex
  unfold next Whole.next
  rcases hr : t.pattern regex with ⟨r, t'⟩
  rw [hr] at hcompile hfaithful hwhole
  obtain rfl : r = (Pattern.compile regex).mapError TokenError.pattern := hcompile
  cases hc : Pattern.compile regex with
  | error e => exact ⟨rfl, hfaithful, hwhole⟩
  | ok p =>
    show Agrees l (t'.nextPattern p) ((t.whole l).nextPattern p)
    rw [← hwhole]
    exact agrees_nextPattern hfaithful (hp p hc)

theorem agrees_hasNext (h : t.Faithful l) {regex : String}
    (hp : ∀ p, Pattern.compile regex = .ok p → p.Streamable) :
    Agrees l (t.hasNext regex) ((t.whole l).hasNext regex) := by
  obtain ⟨hcompile, hfaithful, hwhole⟩ := h.pattern regex
  unfold hasNext Whole.hasNext
  rcases hr : t.pattern regex with ⟨r, t'⟩
  rw [hr] at hcompile hfaithful hwhole
  obtain rfl : r = (Pattern.compile regex).mapError TokenError.pattern := hcompile
  cases hc : Pattern.compile regex with
  | error e => exact ⟨rfl, hfaithful, hwhole⟩
  | ok p =>
    have hskip := agrees_skipAhead hfaithful
    have hfaithful' := hskip.faithful
    rw [← hwhole]
    simp only [Except.mapError, hskip.eq]
    rcases hs : t'.skipAhead with ⟨e | _, t''⟩ <;> rw [hs] at hfaithful'
    · exact ⟨rfl, hfaithful', rfl⟩
    · obtain ⟨hserves, hlookup⟩ := hfaithful'.toServes.find (hp p hc)
      have hsame := (samePlace_find hfaithful'.ok p).2.1
      simp only [← hlookup]
      rcases hf : t''.find p with ⟨e | stop, u⟩ <;> rw [hf] at hserves hsame
      · exact ⟨rfl, hfaithful'.of_sameMarks hserves hsame.toSameMarks, hsame.whole_eq l⟩
      · exact ⟨rfl, hfaithful'.of_sameMarks hserves hsame.toSameMarks, hsame.whole_eq l⟩

theorem agrees_mark (h : t.Faithful l) : Agrees l t.mark (t.whole l).mark :=
  ⟨rfl, ⟨h.toServes.withWindow h.ok.mark rfl rfl rfl, h.coherent, h.skip_streamable⟩, rfl⟩

omit [Source σ] in
theorem holds_iff_mem {m : Mark} (hm : m.Only t.window.marks) :
    t.holds m = true ↔ m ∈ t.window.marks := by
  unfold holds
  rw [Window.holds_iff]
  -- the window asks only for the number of a mark
  refine ⟨fun ⟨n, hn, hid⟩ => ?_, fun hmem => ⟨m, hmem, rfl⟩⟩
  rw [← hm n hn hid]
  exact hn

theorem agrees_reset (h : t.Faithful l) {m : Mark} (hm : m.Only t.window.marks) :
    Agrees l (t.reset m) ((t.whole l).reset m) := by
  have hmarks : (t.whole l).marks = t.window.marks := rfl
  unfold reset Whole.reset
  rw [hmarks]
  by_cases hmem : m ∈ t.window.marks
  · have hreset := h.ok.reset_of_mem hmem
    have hok := h.ok.reset hreset
    rw [if_pos ((holds_iff_mem hm).2 hmem), if_pos hmem, hreset]
    refine ⟨rfl, ⟨h.toServes.withWindow hok rfl rfl rfl, h.coherent, h.skip_streamable⟩, ?_⟩
    have hposition := Window.position_reset hreset
    unfold whole position
    rw [hposition]
  · rw [if_neg fun hh => hmem ((holds_iff_mem hm).1 hh), if_neg hmem]
    exact ⟨rfl, h, rfl⟩

theorem agrees_release (h : t.Faithful l) {m : Mark} (hm : m.Only t.window.marks) :
    Agrees l (t.release m) ((t.whole l).release m) := by
  have hfilter : (t.window.release m).marks = t.window.marks.filter (· ≠ m) := by
    refine List.filter_congr fun n hn => ?_
    by_cases he : n = m
    · simp [he]
    · have hid : n.id ≠ m.id := fun hid => he (hm n hn hid)
      simp [he, hid]
  refine ⟨?_, ⟨h.toServes.withWindow (h.ok.release m) rfl rfl rfl, h.coherent,
    h.skip_streamable⟩, ?_⟩
  · exact Bool.eq_iff_iff.2 ((holds_iff_mem hm).trans decide_eq_true_iff.symm)
  · show Whole.mk l _ _ _ (t.window.release m).marks _ = Whole.mk l _ _ _ _ _
    rw [hfilter]
    rfl

theorem agrees_commit (h : t.Faithful l) :
    t.commit.Faithful l ∧ t.commit.whole l = (t.whole l).commit := by
  have hserves : Serves { t with window := t.window.forget } l :=
    h.toServes.withWindow h.ok.forget rfl rfl rfl
  unfold commit
  by_cases hdropped : t.window.marks.length = 0
  · simp only [if_pos hdropped]
    exact ⟨⟨hserves, h.coherent, h.skip_streamable⟩, rfl⟩
  · simp only [if_neg hdropped]
    exact ⟨⟨hserves.of_eq rfl rfl rfl rfl, h.coherent, h.skip_streamable⟩, rfl⟩

end Tokenizer

/-! ### Requests one after the other -/

namespace Client

open Tokenizer

variable {σ : Type} [Source σ] {l : List UInt8}

/-- Marks that a client was given are told apart from those that are held. -/
def Given (w : Whole) (marks : List Mark) : Prop :=
  ∀ m ∈ marks, m.id < w.nextMark ∧ m.Only w.marks

/-- Two clients that are told the same. -/
structure Matches (l : List UInt8) (c : Client (Tokenizer σ)) (d : Client Whole) : Prop where
  faithful : c.respondent.Faithful l
  whole_eq : c.respondent.whole l = d.respondent
  marks_eq : c.marks = d.marks
  given : Given d.respondent d.marks

theorem Given.of_moves {w w' : Whole} {marks : List Mark} (h : Given w marks)
    (hm : Whole.Moves w w') : Given w' marks := by
  obtain ⟨n, rfl⟩ := hm
  exact h

theorem Given.mark {w : Whole} {marks : List Mark} (h : Given w marks)
    (hlt : ∀ m ∈ w.marks, m.id < w.nextMark) : Given w.mark.2 (marks ++ [w.mark.1]) := by
  intro m hm
  -- the new mark has a number that no mark has, held or not
  rcases List.mem_append.1 hm with hm | hm
  · obtain ⟨hid, honly⟩ := h m hm
    refine ⟨Nat.lt_succ_of_lt hid, fun n hn he => ?_⟩
    rcases List.mem_append.1 hn with hn | hn
    · exact honly n hn he
    · rw [← he, List.mem_singleton.1 hn] at hid
      exact absurd hid (Nat.lt_irrefl _)
  · obtain rfl := List.mem_singleton.1 hm
    refine ⟨Nat.lt_succ_self _, fun n hn he => ?_⟩
    rcases List.mem_append.1 hn with hn | hn
    · have hid := hlt n hn
      rw [he] at hid
      exact absurd hid (Nat.lt_irrefl _)
    · exact List.mem_singleton.1 hn

theorem Given.release {w : Whole} {marks : List Mark} (h : Given w marks) (m : Mark) :
    Given (w.release m).2 marks :=
  fun k hk => ⟨(h k hk).1, fun n hn => (h k hk).2 n (List.mem_filter.1 hn).1⟩

theorem Given.commit {w : Whole} {marks : List Mark} (h : Given w marks) : Given w.commit marks :=
  fun m hm => ⟨(h m hm).1, fun _ hn => absurd hn List.not_mem_nil⟩

/-- After a request for a token the clients still match. -/
theorem Matches.of_agrees {α : Type} {c : Client (Tokenizer σ)} {d : Client Whole}
    (h : Matches l c d) {x : α × Tokenizer σ} {y : α × Whole} (hx : Agrees l x y)
    (hm : Whole.Moves d.respondent y.2) :
    Matches l { c with respondent := x.2 } { d with respondent := y.2 } :=
  ⟨hx.faithful, hx.whole_eq, h.marks_eq, h.given.of_moves hm⟩

/-- One request. -/
theorem Matches.ask {c : Client (Tokenizer σ)} {d : Client Whole} (h : Matches l c d)
    {r : Request} (hr : r.IsLookFree) :
    (c.ask r).1 = (d.ask r).1 ∧ Matches l (c.ask r).2 (d.ask r).2 := by
  have hmarks : c.respondent.window.marks = d.respondent.marks := by
    rw [← h.whole_eq]
    rfl
  cases r with
  | next regex =>
    have hx := agrees_next h.faithful fun p hp => (hr p hp).streamable
    rw [h.whole_eq] at hx
    exact ⟨congrArg Answer.token hx.answer_eq, h.of_agrees hx (Whole.moves_next _ regex)⟩
  | nextPattern p =>
    have hx := agrees_nextPattern h.faithful (Pattern.IsLookFree.streamable hr)
    rw [h.whole_eq] at hx
    exact ⟨congrArg Answer.token hx.answer_eq, h.of_agrees hx (Whole.moves_nextPattern _ p)⟩
  | rawNext p =>
    have hx := agrees_rawNext h.faithful (Pattern.IsLookFree.streamable hr)
    rw [h.whole_eq] at hx
    exact ⟨congrArg Answer.token hx.answer_eq, h.of_agrees hx (Whole.moves_rawNext _ p)⟩
  | hasNext regex =>
    have hx := agrees_hasNext h.faithful fun p hp => (hr p hp).streamable
    rw [h.whole_eq] at hx
    exact ⟨congrArg Answer.told hx.answer_eq, h.of_agrees hx (Whole.moves_hasNext _ regex)⟩
  | mark =>
    have hx := agrees_mark h.faithful
    rw [h.whole_eq] at hx
    refine ⟨congrArg Answer.marked hx.answer_eq, hx.faithful, hx.whole_eq, ?_, h.given.mark ?_⟩
    · exact congrArg₂ (· ++ [·]) h.marks_eq hx.answer_eq
    · rw [← hmarks, ← h.whole_eq]
      exact h.faithful.ok.marks_lt
  | reset k =>
    have hk' : c.marks[k]? = d.marks[k]? := by rw [h.marks_eq]
    cases hk : d.marks[k]? with
    | none =>
      rw [(ask_of_none (hk'.trans hk)).1, (ask_of_none hk).1]
      exact ⟨rfl, h⟩
    | some m =>
      have hm := (h.given m (List.mem_of_getElem? hk)).2
      rw [← hmarks] at hm
      have hx := agrees_reset h.faithful hm
      rw [h.whole_eq] at hx
      rw [(ask_of_some (hk'.trans hk)).1, (ask_of_some hk).1]
      exact ⟨congrArg Answer.moved hx.answer_eq, h.of_agrees hx (Whole.moves_reset _ m)⟩
  | release k =>
    have hk' : c.marks[k]? = d.marks[k]? := by rw [h.marks_eq]
    cases hk : d.marks[k]? with
    | none =>
      rw [(ask_of_none (hk'.trans hk)).2, (ask_of_none hk).2]
      exact ⟨rfl, h⟩
    | some m =>
      have hm := (h.given m (List.mem_of_getElem? hk)).2
      rw [← hmarks] at hm
      have hx := agrees_release h.faithful hm
      rw [h.whole_eq] at hx
      rw [(ask_of_some (hk'.trans hk)).2, (ask_of_some hk).2]
      exact ⟨congrArg Answer.released hx.answer_eq, hx.faithful, hx.whole_eq, h.marks_eq,
        h.given.release m⟩
  | commit =>
    obtain ⟨hfaithful, hwhole⟩ := agrees_commit h.faithful
    rw [h.whole_eq] at hwhole
    exact ⟨rfl, hfaithful, hwhole, h.marks_eq, h.given.commit⟩

/-- Any number of requests. -/
theorem Matches.transcript {c : Client (Tokenizer σ)} {d : Client Whole} (h : Matches l c d)
    {requests : List Request} (hr : ∀ r ∈ requests, r.IsLookFree) :
    c.transcript requests = d.transcript requests := by
  induction requests generalizing c d with
  | nil => rfl
  | cons r rest ih =>
    obtain ⟨hanswer, hmatches⟩ := h.ask (hr r List.mem_cons_self)
    have hposition : Respondent.position (c.ask r).2.respondent =
        Respondent.position (d.ask r).2.respondent :=
      congrArg Whole.position hmatches.whole_eq
    show ((c.ask r).1, Respondent.position (c.ask r).2.respondent) ::
        (c.ask r).2.transcript rest =
      ((d.ask r).1, Respondent.position (d.ask r).2.respondent) :: (d.ask r).2.transcript rest
    rw [hanswer, hposition, ih hmatches fun r' hr' => hr r' (List.mem_cons_of_mem r hr')]

end Client

namespace Tokenizer

variable {σ : Type} [Source σ]

omit [Source σ] in
theorem Fresh.coherent {s : σ} {t : Tokenizer σ} (h : Fresh s t) : t.cache.Coherent := by
  have hempty : ∀ capacity regex, ((PatternCache.empty capacity).get regex).2.1.Coherent :=
    fun capacity regex => ((PatternCache.coherent_empty capacity).get regex).2
  rcases h with rfl | ⟨c, hc⟩
  · exact hempty Config.standard.cacheCapacity "\\s*"
  · rcases withConfig_cases hc with ⟨-, ⟨-, rfl⟩ | ⟨regex, e, cache, events, hget, rfl⟩⟩
    · exact PatternCache.coherent_empty _
    · have := hempty c.cacheCapacity regex
      rw [hget] at this
      exact this

/-- However a source cuts a finite stream into reads, and whatever the capacity of the window, a
fresh tokenizer tells its client what a tokenizer with the whole stream in memory tells.  The
patterns must not have assertions. -/
theorem transcript_eq_whole {s : σ} {stream : List UInt8} (hs : Delivers s stream)
    {t : Tokenizer σ} (ht : Fresh s t) (hskip : ∀ p, t.skip = some p → p.IsLookFree)
    {requests : List Request} (hr : ∀ r ∈ requests, r.IsLookFree) :
    (Client.start t).transcript requests =
      (Client.start (Whole.start stream t.window.capacity t.skip)).transcript requests := by
  have hfaithful : t.Faithful stream :=
    ⟨ht.serves hs, ht.coherent, fun p hp => (hskip p hp).streamable⟩
  have hwhole : t.whole stream = Whole.start stream t.window.capacity t.skip := by
    unfold whole position
    rw [ht.window_eq]
    rfl
  refine Client.Matches.transcript ⟨hfaithful, hwhole, rfl, ?_⟩ hr
  exact fun m hm => absurd hm List.not_mem_nil

/-- Two letters, a comma and another letter, which arrive one byte, no byte and two bytes at a time,
and then one by one. -/
def trickle : Script := ⟨[0x61, 0x61, 0x2C, 0x62], [.hand 1, .hand 0, .hand 2], some 1⟩

/-- A tokenizer of it with room for three bytes. -/
def narrow : Tokenizer Script :=
  ⟨trickle, .empty 3, .uninitialized, false, .empty 1, none, []⟩

/-- Letters are read, given back and read again; the comma fills the window, which the mark keeps
full until it is given up. -/
def readTwice : List Request :=
  [.mark, .next "a+", .reset 0, .next "a+", .hasNext ",", .next ",", .next "b", .release 0,
    .next "b", .next "b"]

set_option maxRecDepth 20000 in
theorem transcript_of_trickle :
    (Client.start narrow).transcript readTwice =
      [(.marked ⟨0, 0⟩, 0), (.token (.ok "aa"), 2), (.moved (.ok ()), 0), (.token (.ok "aa"), 2),
        (.told (.ok true), 2), (.token (.ok ","), 3), (.token (.error (.windowFull 3 3)), 3),
        (.released true, 3), (.token (.ok "b"), 4),
        (.token (.error (.noSuchElement .exhausted)), 4)] := by
  have hs : Delivers trickle trickle.bytes := Script.delivers (by simp [trickle])
  have ht : Fresh trickle narrow := .inr ⟨⟨3, 1, none⟩, rfl⟩
  have hskip : ∀ p, narrow.skip = some p → p.IsLookFree := fun p hp => by cases hp
  have ha : ∀ p, Pattern.compile "a+" = .ok p → p.IsLookFree := fun p hp => by cases hp; rfl
  have hcomma : ∀ p, Pattern.compile "," = .ok p → p.IsLookFree := fun p hp => by cases hp; rfl
  have hb : ∀ p, Pattern.compile "b" = .ok p → p.IsLookFree := fun p hp => by cases hp; rfl
  have hr : ∀ r ∈ readTwice, r.IsLookFree := by
    unfold readTwice
    simp only [List.forall_mem_cons]
    exact ⟨trivial, ha, trivial, ha, hcomma, hcomma, hb, trivial, hb, hb, List.forall_mem_nil _⟩
  exact (transcript_eq_whole hs ht hskip hr).trans rfl

end Tokenizer

end StreamParser
