/-!
# Faults in JSON text

A reader of JSON takes the bytes that are left of a text and returns the bytes that are left after
it.  Where it stops, `Stop` tells why, and what is left; `Fault` tells the same by line and column.
-/

namespace StreamParser.Json

/-- Why a reader stops. -/
inductive FaultKind
  | controlCharacter
  | endInList
  | endInObject
  | endInString
  | endInValue
  | expectedColon
  | expectedListCommaOrEnd
  | expectedObjectCommaOrEnd
  | expectedValue
  | expectedWord
  | invalidEscape
  | invalidNumber
  | keyMustBeString
  | loneSurrogate
  | numberOutOfRange
  | trailingCharacters
  | trailingComma
  | unfinishedSurrogate
  /-- The text is JSON, but not what was asked for. -/
  | unsuitable
  deriving DecidableEq, Repr

namespace FaultKind

/-- The wording of the fault. -/
def message : FaultKind → String
  | controlCharacter => "control character (\\u0000-\\u001F) found while parsing a string"
  | endInList => "EOF while parsing a list"
  | endInObject => "EOF while parsing an object"
  | endInString => "EOF while parsing a string"
  | endInValue => "EOF while parsing a value"
  | expectedColon => "expected `:`"
  | expectedListCommaOrEnd => "expected `,` or `]`"
  | expectedObjectCommaOrEnd => "expected `,` or `\x7d`"
  | expectedValue => "expected value"
  | expectedWord => "expected ident"
  | invalidEscape => "invalid escape"
  | invalidNumber => "invalid number"
  | keyMustBeString => "key must be a string"
  | loneSurrogate => "lone leading surrogate in hex escape"
  | numberOutOfRange => "number out of range"
  | trailingCharacters => "trailing characters"
  | trailingComma => "trailing comma"
  | unfinishedSurrogate => "unexpected end of hex escape"
  | unsuitable => "unsuitable value"

/-- The three classes of faults: the text ends too early, is no JSON, or is not what was asked
for. -/
def category : FaultKind → String
  | endInList => "Eof"
  | endInObject => "Eof"
  | endInString => "Eof"
  | endInValue => "Eof"
  | unsuitable => "Data"
  | _ => "Syntax"

end FaultKind

/-- Where a reader stops. -/
structure Stop where
  kind : FaultKind
  /-- The bytes that have not been read. -/
  rest : List UInt8
  /-- The fault is the byte that comes next. -/
  ahead : Bool
  deriving DecidableEq, Repr

/-- A fault at a place in a text. -/
structure Fault where
  kind : FaultKind
  line : Nat
  column : Nat
  deriving DecidableEq, Repr

/-- The wording of the fault with its place. -/
def Fault.message (f : Fault) : String :=
  f.kind.message ++ " at line " ++ toString f.line ++ " column " ++ toString f.column

/-- The fault of a reader that stops in the text `whole`.  The column counts the bytes of the line
up to the place. -/
def Stop.fault (whole : List UInt8) (s : Stop) : Fault :=
  let rest := if s.ahead then s.rest.drop 1 else s.rest
  let before := whole.take (whole.length - rest.length)
  let lineEnds := before.filter (· == 0x0A)
  ⟨s.kind, 1 + lineEnds.length, (before.reverse.takeWhile (· != 0x0A)).length⟩

/-- A reader: what it makes of the bytes that are left, and the bytes that are left after it. -/
abbrev Read (α : Type) : Type := List UInt8 → Except Stop (α × List UInt8)

/-- Stop after the bytes that have been read. -/
def stop {α : Type} (kind : FaultKind) (rest : List UInt8) : Except Stop α :=
  .error ⟨kind, rest, false⟩

/-- Stop at the byte that comes next. -/
def stopAt {α : Type} (kind : FaultKind) (rest : List UInt8) : Except Stop α :=
  .error ⟨kind, rest, true⟩

/-- Leave out the blanks at the beginning. -/
def skipBlanks (l : List UInt8) : List UInt8 :=
  l.dropWhile fun b => b == 0x20 || b == 0x0A || b == 0x09 || b == 0x0D

/-- A digit. -/
def isDigit (b : UInt8) : Bool := 0x30 ≤ b && b ≤ 0x39

end StreamParser.Json
