import StreamParser.Input
import StreamParser.Tokenizer

/-!
# Streams of tokens

A stream is a tokenizer that a grammar reads.  To try something, it sets a mark; if the trial fails,
it goes back to the mark.  A commit gives up all marks.  After that a failure can no longer be taken
back, and so the trials around it report an error from which there is no recovery.
-/

namespace StreamParser

/-- A tokenizer as an input. -/
structure Stream (σ : Type) where
  tokenizer : Tokenizer σ
  /-- How many trials have begun and not ended. -/
  trials : Nat

namespace Stream

variable {σ : Type}

/-- A tokenizer with no trial begun. -/
def start (t : Tokenizer σ) : Stream σ := ⟨t, 0⟩

/-- The place in the stream. -/
def position (s : Stream σ) : Nat := s.tokenizer.position

/-- Consume a token that matches a pattern. -/
def matchPattern [Source σ] (p : Pattern) (s : Stream σ) : Except ParseError String × Stream σ :=
  match s.tokenizer.rawNext p with
  | (.ok token, t) => (.ok token, { s with tokenizer := t })
  | (.error e, t) => (.error (.token e), { s with tokenizer := t })

/-- Begin to try something: mark the place. -/
def begin (s : Stream σ) : Mark × Stream σ :=
  let (m, t) := s.tokenizer.mark
  (m, ⟨t, s.trials + 1⟩)

/-- The trial that began with a mark has succeeded. -/
def succeeded (m : Mark) (s : Stream σ) : Stream σ := ⟨(s.tokenizer.release m).2, s.trials - 1⟩

/-- The trial that began with a mark has failed: go back to the mark, if it is still held. -/
def failed (m : Mark) (e : ParseError) (s : Stream σ) : ParseError × Stream σ :=
  let t := s.tokenizer
  if t.holds m then
    let (result, t) := t.reset m
    let t := (t.release m).2
    match result with
    | .ok () => (e, ⟨t, s.trials - 1⟩)
    | .error stale => (.token stale, ⟨t, s.trials - 1⟩)
  else (e.afterCommit t.position, ⟨t, s.trials - 1⟩)

/-- The stream as it is shown to whoever looks for mistakes. -/
def shown (s : Stream σ) : String := "TokenStream(" ++ s.tokenizer.shown ++ ")"

/-- The stream as it is shown while its tokenizer is at work and cannot be looked at. -/
def shownBusy : String := "TokenStream(<in use>)"

instance [Source σ] : Input (Stream σ) where
  Trial := Mark
  position := position
  matchPattern := matchPattern
  begin := begin
  succeeded := succeeded
  failed := failed
  isTrying s := 0 < s.trials
  commit s := { s with tokenizer := s.tokenizer.commit }
  failurePosition _ after := after.position

end Stream

end StreamParser
