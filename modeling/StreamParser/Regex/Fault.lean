/-!
# Faults in the text of a regular expression

A fault has a kind and a place.  `FaultKind.message` is its wording.
-/

namespace StreamParser.Regex

/-- A stretch of the text, in bytes: from `start` up to `stop`. -/
structure Span where
  start : Nat
  stop : Nat
  deriving DecidableEq, Repr

/-- The number of bytes. -/
def Span.length (s : Span) : Nat := s.stop - s.start

/-- What is wrong with the text of a regular expression. -/
inductive FaultKind
  | backreference
  | captureNameDuplicate
  | captureNameEmpty
  | captureNameInvalid
  | captureNameUnclosed
  | classEscapeInvalid
  | classRangeInvalid
  | classRangeNotLiteral
  | classUnclosed
  | decimalInvalid
  | escapeUnfinished
  | escapeUnknown
  | flagDanglingNegation
  | flagDuplicate
  | flagMissing
  | flagRepeatedNegation
  | flagUnknown
  | groupUnclosed
  | groupUnopened
  | hexEmpty
  | hexInvalid
  | hexInvalidDigit
  | invalidUtf8
  | lookAround
  | nestedTooDeep (limit : Nat)
  | propertyInvalid
  | propertyUnknown
  | propertyValueUnknown
  | repetitionCountEmpty
  | repetitionCountInvalid
  | repetitionCountUnclosed
  | repetitionMissing
  | unicodeNotAllowed
  | wordEdgeOrRepetitionUnclosed
  | wordEdgeUnclosed
  | wordEdgeUnknown
  deriving DecidableEq, Repr

/-- The wording of the fault. -/
def FaultKind.message : FaultKind → String
  | backreference => "backreferences are not supported"
  | captureNameDuplicate => "duplicate capture group name"
  | captureNameEmpty => "empty capture group name"
  | captureNameInvalid => "invalid capture group character"
  | captureNameUnclosed => "unclosed capture group name"
  | classEscapeInvalid => "invalid escape sequence found in character class"
  | classRangeInvalid => "invalid character class range, the start must be <= the end"
  | classRangeNotLiteral => "invalid range boundary, must be a literal"
  | classUnclosed => "unclosed character class"
  | decimalInvalid => "decimal literal invalid"
  | escapeUnfinished => "incomplete escape sequence, reached end of pattern prematurely"
  | escapeUnknown => "unrecognized escape sequence"
  | flagDanglingNegation => "dangling flag negation operator"
  | flagDuplicate => "duplicate flag"
  | flagMissing => "expected flag but got end of regex"
  | flagRepeatedNegation => "flag negation operator repeated"
  | flagUnknown => "unrecognized flag"
  | groupUnclosed => "unclosed group"
  | groupUnopened => "unopened group"
  | hexEmpty => "hexadecimal literal empty"
  | hexInvalid => "hexadecimal literal is not a Unicode scalar value"
  | hexInvalidDigit => "invalid hexadecimal digit"
  | invalidUtf8 => "pattern can match invalid UTF-8"
  | lookAround => "look-around, including look-ahead and look-behind, is not supported"
  | nestedTooDeep limit =>
    "exceed the maximum number of nested parentheses/brackets (" ++ toString limit ++ ")"
  | propertyInvalid => "invalid Unicode character class"
  | propertyUnknown => "Unicode property not found"
  | propertyValueUnknown => "Unicode property value not found"
  | repetitionCountEmpty => "repetition quantifier expects a valid decimal"
  | repetitionCountInvalid =>
    "invalid repetition count range, the start must be <= the end"
  | repetitionCountUnclosed => "unclosed counted repetition"
  | repetitionMissing => "repetition operator missing expression"
  | unicodeNotAllowed => "Unicode not allowed here"
  | wordEdgeOrRepetitionUnclosed =>
    "found either the beginning of a special word boundary or a bounded repetition on a \\b " ++
      "with an opening brace, but no closing brace"
  | wordEdgeUnclosed =>
    "special word boundary assertion is either unclosed or contains an invalid character"
  | wordEdgeUnknown =>
    "unrecognized special word boundary assertion, valid choices are: start, end, start-half or " ++
      "end-half"

/-- A fault and its place. -/
structure Fault where
  kind : FaultKind
  span : Span
  deriving DecidableEq, Repr

end StreamParser.Regex
