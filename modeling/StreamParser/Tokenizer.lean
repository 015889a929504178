import StreamParser.Config
import StreamParser.Pattern.Cache
import StreamParser.Source
import StreamParser.Tokenizer.Window

/-!
# Tokenizers

A tokenizer turns the bytes of a source into tokens.  It holds a window of the stream.  A match that
depends on bytes after the window is tried again with more bytes, until it is settled, the source
ends, or the bytes that have to be kept fill the window.

* `Tokenizer.next` skips what is to be skipped and consumes a token; `Tokenizer.rawNext` does not
  skip; `Tokenizer.hasNext` does not consume.
* `Tokenizer.mark`, `Tokenizer.reset`, `Tokenizer.release` and `Tokenizer.commit` go back in the
  stream, as far as marks are held.
* Every operation returns its result and the tokenizer after it.  A request that fails consumes
  nothing, and may be made again.
-/

namespace StreamParser

/-- What a tokenizer is doing. -/
inductive Phase
  /-- Nothing has been read. -/
  | uninitialized
  /-- The last request was answered. -/
  | ready
  /-- The last request could not be answered without more bytes. -/
  | needsInput
  /-- No more requests are answered. -/
  | closed
  deriving DecidableEq, Repr

/-- A tokenizer over a source. -/
structure Tokenizer (σ : Type) where
  source : σ
  window : Window
  phase : Phase
  /-- The source has ended. -/
  exhausted : Bool
  cache : PatternCache
  /-- What is skipped before a token. -/
  skip : Option Pattern
  /-- What has happened, the last event first. -/
  events : List Event

namespace Tokenizer

variable {σ : Type}

/-- Note what has happened, the first event first. -/
def note (t : Tokenizer σ) (events : List Event) : Tokenizer σ :=
  { t with events := events.reverse ++ t.events }

/-- The place in the stream up to which bytes are consumed. -/
def position (t : Tokenizer σ) : Nat := t.window.position

/-- A tokenizer with a valid configuration and a skip pattern that compiles. -/
def withConfig (source : σ) (c : Config) : Except ParseError (Tokenizer σ) := do
  c.validate
  let start (cache : PatternCache) (skip : Option Pattern) (events : List Event) : Tokenizer σ :=
    { source := source, window := .empty c.bufferCapacity, phase := .uninitialized,
      exhausted := false, cache := cache, skip := skip, events := events }
  match c.skipPattern with
  | none => return start (.empty c.cacheCapacity) none []
  | some regex =>
    match (PatternCache.empty c.cacheCapacity).get regex with
    | (.ok e, cache, events) => return start cache (some e.pattern) events.reverse
    | (.error e, _, _) => throw (.pattern e)

/-- A tokenizer with the standard configuration. -/
def new (source : σ) : Tokenizer σ :=
  let (skip, cache, events) := (PatternCache.empty Config.standard.cacheCapacity).get "\\s*"
  { source := source, window := .empty Config.standard.bufferCapacity, phase := .uninitialized,
    exhausted := false, cache := cache, skip := skip.toOption.map (·.pattern),
    events := events.reverse }

/-! ## Marks -/

/-- Mark the position. -/
def mark (t : Tokenizer σ) : Mark × Tokenizer σ :=
  let (m, w) := t.window.mark
  (m, { t with window := w })

/-- A mark is held. -/
def holds (t : Tokenizer σ) (m : Mark) : Bool := t.window.holds m

/-- Go back to a mark, if it is held. -/
def reset (t : Tokenizer σ) (m : Mark) : Except TokenError Unit × Tokenizer σ :=
  if t.holds m then
    match t.window.reset m.offset with
    | .ok w => (.ok (), { t with window := w })
    | .error e => (.error e, t)
  else (.error (.staleMark m.offset), t)

/-- Give up a mark; whether it was held. -/
def release (t : Tokenizer σ) (m : Mark) : Bool × Tokenizer σ :=
  (t.holds m, { t with window := t.window.release m })

/-- Give up all marks. -/
def commit (t : Tokenizer σ) : Tokenizer σ :=
  let dropped := t.window.marks.length
  let t := if dropped = 0 then t else t.note [.committed t.position dropped]
  { t with window := t.window.forget }

/-! ## Reading -/

/-- Every request is refused from now on.  The source is closed once, the first time. -/
def close [Source σ] (t : Tokenizer σ) : Except TokenError Unit × Tokenizer σ :=
  if t.phase = .closed then (.ok (), t)
  else
    let t := { t with phase := .closed }.note [.closing t.position]
    let (e, s) := Source.close t.source
    let t := { t with source := s }
    match e with
    | some e => (.error (.io e), t)
    | none => (.ok (), t)

/-- Read bytes into the free part of the window. -/
def read [Source σ] (t : Tokenizer σ) : Except TokenError Unit × Tokenizer σ :=
  let (reply, s) := Source.read t.source t.window.room
  let t := { t with source := s }
  match reply with
  | .read bytes count => (.ok (), { t with window := t.window.receive bytes count })
  | .finished => (.ok (), { t with exhausted := true }.note [.endOfInput t.position])
  | .failed e => (.error (.io e), t)

/-- Read for the first time. -/
def fill [Source σ] (t : Tokenizer σ) : Except TokenError Unit × Tokenizer σ :=
  match (t.note [.initialFill t.window.capacity]).read with
  | (.ok (), t) => (.ok (), { t with phase := .ready })
  | (.error e, t) => (.error e, t)

/-- Make room in the window, and read. -/
def refill [Source σ] (t : Tokenizer σ) : Except TokenError Unit × Tokenizer σ :=
  let dropped := t.window.retained
  let w := t.window.compact
  { t with window := w }.note [.refilling dropped w.limit] |>.read

/-- The error of a request that needs more bytes than the window has room for. -/
def fullError (t : Tokenizer σ) : TokenError :=
  if t.window.pinned = 0 then .noSuchElement (.exceedsBuffer t.window.capacity)
  else .windowFull t.window.capacity t.window.pinned

/-- What the bytes in the window say about a request. -/
inductive Verdict
  /-- The token ends before the byte at `stop` of the window. -/
  | found (stop : Nat)
  /-- There is no such token. -/
  | absent (error : TokenError)
  /-- The matcher gives up. -/
  | stuck (error : PatternError)
  /-- More bytes are needed. -/
  | wantsMore

/-- Judge a request by the bytes in the window.  With no bytes after the cursor, a mismatch says
nothing as long as the source may have more. -/
def verdict (t : Tokenizer σ) (p : Pattern) : Verdict :=
  match p.matchAt t.window.filled t.window.cursor t.exhausted with
  | .error e => .stuck e
  | .ok (.matched stop) => .found stop
  | .ok .needsInput => .wantsMore
  | .ok .noMatch =>
    if !t.window.isDrained then .absent (.inputMismatch p.source)
    else if t.exhausted then .absent (.noSuchElement .exhausted)
    else .wantsMore

/-- Judge a request, and read until it can be answered; at most `n` times. -/
def search [Source σ] (p : Pattern) : Nat → Tokenizer σ → Except TokenError Nat × Tokenizer σ
  | 0, t => (.error t.fullError, t)
  | n + 1, t =>
    match t.verdict p with
    | .found stop => (.ok stop, { t with phase := .ready })
    | .absent e => (.error e, { t with phase := .ready })
    | .stuck e => (.error (.pattern e), t)
    | .wantsMore =>
      let t := { t with phase := .needsInput }
      if t.window.isFull then
        (.error t.fullError,
          t.note [.noRoom p.source t.window.capacity t.window.pinned])
      else
        match t.refill with
        | (.ok (), t) => search p n t
        | (.error e, t) => (.error e, t)

/-- A bound on the number of times that a request has to be judged: each read adds a byte to the
window, ends the source or uses up its patience. -/
def effort [Source σ] (t : Tokenizer σ) : Nat := t.window.capacity + Source.patience t.source + 2

/-- The place in the window where the next token ends. -/
def find [Source σ] (t : Tokenizer σ) (p : Pattern) : Except TokenError Nat × Tokenizer σ :=
  match t.phase with
  | .closed => (.error (.noSuchElement .closed), t)
  | .uninitialized =>
    match t.fill with
    | (.ok (), t) => search p t.effort t
    | (.error e, t) => (.error e, t)
  | .ready => search p t.effort t
  | .needsInput => search p t.effort t

/-! ## Requests -/

/-- Consume a token, without skipping anything before it. -/
def rawNext [Source σ] (t : Tokenizer σ) (p : Pattern) : Except TokenError String × Tokenizer σ :=
  match t.find p with
  | (.error e, t) => (.error e, t)
  | (.ok stop, t) =>
    match t.window.take stop with
    | .ok (token, w) => (.ok token, { t with window := w }.note [.matched p.source token])
    | .error e => (.error e, t)

/-- Skip what is to be skipped.  If it does not match, nothing is skipped. -/
def skipAhead [Source σ] (t : Tokenizer σ) : Except TokenError Unit × Tokenizer σ :=
  match t.skip with
  | none => (.ok (), t)
  | some p =>
    match t.rawNext p with
    | (.ok _, t) => (.ok (), t)
    | (.error e, t) => if e.isRecoverable then (.ok (), t) else (.error e, t)

/-- Skip, and consume a token. -/
def nextPattern [Source σ] (t : Tokenizer σ) (p : Pattern) :
    Except TokenError String × Tokenizer σ :=
  match t.skipAhead with
  | (.ok (), t) => t.rawNext p
  | (.error e, t) => (.error e, t)

/-- The pattern of a regular expression, from the cache. -/
def pattern (t : Tokenizer σ) (regex : String) : Except TokenError Pattern × Tokenizer σ :=
  let (result, cache, events) := t.cache.get regex
  let t := { t with cache := cache }.note events
  match result with
  | .ok e => (.ok e.pattern, t)
  | .error e => (.error (.pattern e), t)

/-- Skip, and consume a token that matches a regular expression. -/
def next [Source σ] (t : Tokenizer σ) (regex : String) : Except TokenError String × Tokenizer σ :=
  match t.pattern regex with
  | (.ok p, t) => t.nextPattern p
  | (.error e, t) => (.error e, t)

/-- Skip, and tell whether a token follows that matches a regular expression. -/
def hasNext [Source σ] (t : Tokenizer σ) (regex : String) : Except TokenError Bool × Tokenizer σ :=
  match t.pattern regex with
  | (.error e, t) => (.error e, t)
  | (.ok p, t) =>
    match t.skipAhead with
    | (.error e, t) => (.error e, t)
    | (.ok (), t) =>
      match t.find p with
      | (.ok _, t) => (.ok true, t)
      | (.error e, t) => (if e.isRecoverable then .ok false else .error e, t)

/-- Change what is skipped. -/
def useSkip (t : Tokenizer σ) (p : Option Pattern) : Tokenizer σ := { t with skip := p }

/-- Skip what matches a regular expression. -/
def useSkipRegex (t : Tokenizer σ) (regex : String) : Except TokenError Unit × Tokenizer σ :=
  match t.pattern regex with
  | (.ok p, t) => (.ok (), t.useSkip (some p))
  | (.error e, t) => (.error e, t)

/-- Consume tokens until there is none, at most `n`: the tokens, and why there are no more. -/
def takeAll [Source σ] (regex : String) : Nat → Tokenizer σ →
    List String × Option TokenError × Tokenizer σ
  | 0, t => ([], none, t)
  | n + 1, t =>
    match t.next regex with
    | (.ok token, t) =>
      let (tokens, stop, t) := takeAll regex n t
      (token :: tokens, stop, t)
    | (.error e, t) => ([], some e, t)

/-! ## Looking at a tokenizer -/

/-- The name of a phase. -/
def phaseName : Phase → String
  | .uninitialized => "Uninitialized"
  | .ready => "Ready"
  | .needsInput => "NeedsInput"
  | .closed => "Closed"

/-- The tokenizer as it is shown to whoever looks for mistakes. -/
def shown (t : Tokenizer σ) : String :=
  String.join
    ["Tokenizer \x7b state: ", phaseName t.phase,
      ", position: ", toString t.position,
      ", buffered: ", toString t.window.unconsumed.length,
      ", capacity: ", toString t.window.capacity,
      ", exhausted: ", toString t.exhausted,
      ", skip: ", (match t.skip with | some p => "Some(" ++ p.shown ++ ")" | none => "None"),
      " \x7d"]

end Tokenizer

end StreamParser
