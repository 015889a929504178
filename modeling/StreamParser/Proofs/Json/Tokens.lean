import StreamParser.Json.Grammar
import StreamParser.Proofs.Pattern.Streamable

/-!
# The tokens of JSON

The patterns of the tokens, written out.
-/

namespace StreamParser.Json

open StreamParser.Expr

/-- The characters of a text, one after the other. -/
def spelled (t : String) : Expr := sequence (t.toList.map fun c => chars (.single c))

/-- The digits. -/
def digits : CodePoints := .range 0x30 0x39

/-- White space. -/
def spaces : Pattern := ⟨"\\s*", rep true 0 none (chars .space)⟩

/-- The end of the input. -/
def ending : Pattern := ⟨"\\z", look .textEnd⟩

/-- The null value. -/
def nothing : Pattern := ⟨"null", spelled "null"⟩

/-- Truth values. -/
def truth : Pattern := ⟨"true|false", alt (spelled "true") (spelled "false")⟩

/-- The sign of a number, if it has one. -/
def minus : Expr := rep true 0 (some 1) (chars (.single '-'))

/-- The integer part of a number. -/
def whole : Expr :=
  alt (chars (.single '0')) (seq (chars (.range 0x31 0x39)) (rep true 0 none (chars digits)))

/-- The fraction of a number. -/
def fraction : Expr := seq (chars (.single '.')) (rep true 1 none (chars digits))

/-- The letters that begin an exponent. -/
def exponentLetters : CodePoints := ⟨[(0x45, 0x45), (0x65, 0x65)]⟩

/-- The signs of an exponent. -/
def exponentSigns : CodePoints := ⟨[(0x2B, 0x2B), (0x2D, 0x2D)]⟩

/-- The exponent of a number. -/
def exponent : Expr :=
  seq (chars exponentLetters) (seq (rep true 0 (some 1) (chars exponentSigns))
    (rep true 1 none (chars digits)))

/-- What follows the integer part of a number. -/
def afterWhole : Expr := seq (rep true 0 (some 1) fraction) (rep true 0 (some 1) exponent)

/-- Numbers. -/
def numeral : Pattern :=
  ⟨"-?(0|[1-9][0-9]*)(\\.[0-9]+)?([eE][+-]?[0-9]+)?", seq minus (seq whole afterWhole)⟩

/-- The characters that stand for themselves in a string. -/
def plain : CodePoints := ⟨[(0, 0x21), (0x23, 0x5B), (0x5D, 0x10FFFF)]⟩

/-- The characters that may follow a backslash in a string. -/
def escaped : CodePoints := ⟨[(0, 0x09), (0x0B, 0x10FFFF)]⟩

/-- A character of a string: one that stands for itself, or an escaped one. -/
def unit : Expr := alt (chars plain) (seq (chars (.single '\\')) (chars escaped))

/-- Strings. -/
def quoted : Pattern :=
  ⟨"\"([^\"\\\\]|\\\\.)*\"",
    seq (chars (.single '"')) (seq (rep true 0 none unit) (chars (.single '"')))⟩

/-- A single character, which is written as a regular expression. -/
def sign (source : String) (c : Char) : Pattern := ⟨source, chars (.single c)⟩

theorem spacePattern_eq : spacePattern = .ok spaces := rfl

theorem endPattern_eq : endPattern = .ok ending := rfl

theorem nullPattern_eq : nullPattern = .ok nothing := rfl

theorem booleanPattern_eq : booleanPattern = .ok truth := rfl

set_option maxRecDepth 8000 in
theorem numberPattern_eq : numberPattern = .ok numeral := rfl

set_option maxRecDepth 8000 in
theorem stringPattern_eq : stringPattern = .ok quoted := rfl

theorem commaPattern_eq : commaPattern = .ok (sign "," ',') := rfl

theorem colonPattern_eq : colonPattern = .ok (sign ":" ':') := rfl

theorem openBracketPattern_eq : openBracketPattern = .ok (sign "\\[" '[') := rfl

theorem closeBracketPattern_eq : closeBracketPattern = .ok (sign "\\]" ']') := rfl

theorem openBracePattern_eq : openBracePattern = .ok (sign "\\\x7b" '\x7b') := rfl

theorem closeBracePattern_eq : closeBracePattern = .ok (sign "\\\x7d" '\x7d') := rfl

end StreamParser.Json
