import StreamParser.Error
import StreamParser.Regex.Meaning
import StreamParser.Regex.Scan
import StreamParser.Text.Quoted

/-!
# Patterns

A pattern is a regular expression that is matched against a window of bytes, from a given place on
and nowhere else.  The window may be a part of a longer input.  So there are three answers: the end
of the match, no match, or that more input is needed to tell.

* `Pattern.compile` makes a pattern from the text of a regular expression, `Pattern.literal` one
  that matches a text as it stands;
* `Pattern.matchAt` is the match.  An answer at the end of a window that is not the end of the input
  is given only if no further byte can change it (`Pattern.isSettled`).
-/

namespace StreamParser

/-- The answer of a match. -/
inductive MatchStatus
  /-- The match ends before the byte at `stop`. -/
  | matched (stop : Nat)
  /-- It depends on the bytes after the window. -/
  | needsInput
  /-- There is no match. -/
  | noMatch
  deriving DecidableEq, Repr

/-- The answer when the last match that was seen ends at `last`. -/
def MatchStatus.ofLast : Option Nat → MatchStatus
  | some stop => matched stop
  | none => noMatch

/-- A regular expression that can be matched. -/
structure Pattern where
  /-- The text of the regular expression. -/
  source : String
  /-- What it stands for. -/
  expr : Expr
  deriving DecidableEq, Repr

namespace Pattern

open Scan

/-- Make a pattern from the text of a regular expression. -/
def compile (regex : String) : Except PatternError Pattern :=
  match Regex.compile regex with
  | .ok e => .ok ⟨regex, e⟩
  | .error f => .error (.malformed regex f.span.start f.span.length f.kind.message)

/-- A character that means something else than itself in a regular expression. -/
def isMeta (c : Char) : Bool := "\\.+*?()|[]\x7b\x7d^$#&-~".contains c

/-- The text of a regular expression that matches `t` as it stands. -/
def escape (t : String) : String :=
  String.ofList (t.toList.flatMap fun c => if isMeta c then ['\\', c] else [c])

/-- Make a pattern that matches a text as it stands. -/
def literal (t : String) : Except PatternError Pattern := compile (escape t)

/-- The pattern as it is shown to whoever looks for mistakes. -/
def shown (p : Pattern) : String := "Pattern(" ++ Quoted.encode p.source ++ ")"

/-- How far a scan has come when it stops. -/
inductive Progress
  /-- The threads are dead, and the last match ends at `last`. -/
  | finished (last : Option Nat)
  /-- The bytes have been read to their end, and the last match so far ends at `last`. -/
  | reached (s : State) (last : Option Nat)
  /-- The byte at `offset` cannot be judged. -/
  | stuck (offset : Nat)

/-- Scan bytes, the first of which is at `offset`.  A step reports a match that ends before the byte
that it reads. -/
def scan (asciiOnly : Bool) (s : State) (offset : Nat) (last : Option Nat) : List UInt8 → Progress
  | [] => .reached s last
  | b :: rest =>
    match s.step asciiOnly b with
    | none => .stuck offset
    | some s =>
      if s.matched then scan asciiOnly s (offset + 1) (some offset) rest
      else if s.isDead then .finished last
      else scan asciiOnly s (offset + 1) last rest

/-- No further byte changes the answer.  At the end of the window, which is at `length`, the last
match that was seen ends at `last`; with the end of the input there, it would end at `final`. -/
def isSettled (asciiOnly : Bool) (s : State) (last final : Option Nat) (length : Nat) : Bool :=
  (List.range 256).all fun i =>
    let b := UInt8.ofNat i
    if s.diesAt asciiOnly b then final == last
    else
      (s.step asciiOnly b).any fun next =>
        next.matched && final == some length && next.isBarren asciiOnly

/-- Two digits in base sixteen. -/
def hexByte (b : UInt8) : String :=
  let digit (n : Nat) : Char := Char.ofNat (if n < 10 then 0x30 + n else 0x37 + n)
  String.ofList [digit (b.toNat / 16), digit (b.toNat % 16)]

/-- Match the pattern against a window from `start` on; `atEnd` says that the input ends with the
window.  Assertions see the bytes of the window before `start`. -/
def matchAt (p : Pattern) (window : List UInt8) (start : Nat) (atEnd : Bool) :
    Except PatternError MatchStatus :=
  let start := min start window.length
  let asciiOnly := p.expr.anyLook Look.isUnicodeWord
  let before := if start = 0 then none else window[start - 1]?
  match before with
  | some b =>
    if asciiOnly && 0x80 ≤ b then
      .error (.unbuildable p.source
        ("quit search after observing byte \\x" ++ hexByte b ++ " at offset " ++
          toString (start - 1)))
    else go asciiOnly before start
  | none => go asciiOnly before start
where
  /-- The match, when it can start after the byte `before`. -/
  go (asciiOnly : Bool) (before : Option UInt8) (start : Nat) : Except PatternError MatchStatus :=
    match scan asciiOnly (State.init before p.expr) start none (window.drop start) with
    | .stuck offset => .error (.unsupported p.source offset)
    | .finished last => .ok (.ofLast last)
    | .reached s last =>
      let final := if s.endsMatched then some window.length else last
      if atEnd || isSettled asciiOnly s last final window.length then .ok (.ofLast final)
      else .ok .needsInput

end Pattern

end StreamParser
