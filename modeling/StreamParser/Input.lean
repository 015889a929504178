import StreamParser.Pattern

/-!
# What grammars read

An input is a place in a text that can be left and returned to.  `Input` gathers what a grammar
needs of it: to match a pattern, to try something and to come back if it fails, and to give up
coming back.
-/

namespace StreamParser

/-- Something that a grammar can read. -/
class Input (ω : Type) where
  /-- What is remembered while something is tried. -/
  Trial : Type
  /-- The place in the text, in bytes. -/
  position : ω → Nat
  /-- Match a pattern at the place, and go behind what it matches. -/
  matchPattern : Pattern → ω → Except ParseError String × ω
  /-- Begin to try something. -/
  begin : ω → Trial × ω
  /-- What was tried has succeeded. -/
  succeeded : Trial → ω → ω
  /-- What was tried has failed: the error to report, and the input, which is back at the place
  where the trial began, unless it was committed in between. -/
  failed : Trial → ParseError → ω → ParseError × ω
  /-- A failure takes the input back anyway, so that a group of steps needs no trial of its own. -/
  isTrying : ω → Bool
  /-- Never go back before the place. -/
  commit : ω → ω
  /-- The place that is told as the place of a failure, when what failed began with the input
  `before` and ended with `after`. -/
  failurePosition : (before after : ω) → Nat

end StreamParser
