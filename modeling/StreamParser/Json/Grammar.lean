import StreamParser.Grammar.Run
import StreamParser.Input.Cursor
import StreamParser.Input.Stream
import StreamParser.Json.StringLiteral
import StreamParser.Json.Value

/-!
# A grammar of JSON

The grammar reads JSON from every input.  White space may stand before each token.  After the
opening bracket of an array or an object the grammar commits itself, so that a long document needs
no more of the input at a time than one token and what belongs to it.

The grammar refers to itself by the name of a rule: `Json.value r` reads a value, when the rule `r`
reads a value.
-/

namespace StreamParser.Json

open Grammar

/-! ## Tokens -/

/-- The pattern of white space. -/
def spacePattern : Except PatternError Pattern := Pattern.compile "\\s*"

/-- The pattern of the end of the input. -/
def endPattern : Except PatternError Pattern := Pattern.compile "\\z"

/-- The pattern of the null value. -/
def nullPattern : Except PatternError Pattern := Pattern.compile "null"

/-- The pattern of truth values. -/
def booleanPattern : Except PatternError Pattern := Pattern.compile "true|false"

/-- The pattern of numbers. -/
def numberPattern : Except PatternError Pattern :=
  Pattern.compile "-?(0|[1-9][0-9]*)(\\.[0-9]+)?([eE][+-]?[0-9]+)?"

/-- The pattern of strings. -/
def stringPattern : Except PatternError Pattern := Pattern.compile "\"([^\"\\\\]|\\\\.)*\""

/-- The pattern of the comma. -/
def commaPattern : Except PatternError Pattern := Pattern.compile ","

/-- The pattern of the colon. -/
def colonPattern : Except PatternError Pattern := Pattern.compile ":"

/-- The pattern of the bracket that opens an array. -/
def openBracketPattern : Except PatternError Pattern := Pattern.compile "\\["

/-- The pattern of the bracket that closes an array. -/
def closeBracketPattern : Except PatternError Pattern := Pattern.compile "\\]"

/-- The pattern of the brace that opens an object. -/
def openBracePattern : Except PatternError Pattern := Pattern.compile "\\\x7b"

/-- The pattern of the brace that closes an object. -/
def closeBracePattern : Except PatternError Pattern := Pattern.compile "\\\x7d"

section

variable {ρ ν α : Type}

/-- Skip white space before a thing. -/
def trim (g : Grammar ρ Value ν α) : Grammar ρ Value ν α := (pattern spacePattern).skipLeft g

/-- A token after white space. -/
def token (p : Except PatternError Pattern) : Grammar ρ Value ν String := trim (pattern p)

/-! ## Values -/

/-- The null value. -/
def null : Grammar ρ Value ν Value := (token nullPattern).map fun _ => .null

/-- A truth value. -/
def boolean : Grammar ρ Value ν Value := (token booleanPattern).map fun t => .boolean (t == "true")

/-- A number.  One that is out of range fails. -/
def number : Grammar ρ Value ν Value :=
  (token numberPattern).andThen fun t =>
    match Number.ofText t with
    | .ok n => succeed (.number n)
    | .error e => failure ("invalid number `" ++ t ++ "`: " ++ e.message)

/-- A string.  One with an invalid escape or a control character fails. -/
def string : Grammar ρ Value ν String :=
  (token stringPattern).andThen fun t =>
    match StringLiteral.ofText t with
    | .ok s => succeed s
    | .error e => failure ("invalid string " ++ t ++ ": " ++ e.message)

/-- An array, whose items are read by a rule. -/
def array (item : ρ) : Grammar ρ Value ν Value :=
  let items := separatedByZeroOrMore (rule item) (token commaPattern)
  ((token openBracketPattern).skipLeft (commit (items.skip (token closeBracketPattern)))).map .array

/-- A member of an object: a key, a colon, and a value that is read by a rule. -/
def property (item : ρ) : Grammar ρ Value ν (String × Value) :=
  string.seq ((token colonPattern).skipLeft (rule item))

/-- An object, whose values are read by a rule. -/
def object (item : ρ) : Grammar ρ Value ν Value :=
  let members := separatedByZeroOrMore (property item) (token commaPattern)
  ((token openBracePattern).skipLeft (commit (members.skip (token closeBracePattern)))).map
    Value.ofMembers

/-- A value, where the values inside it are read by a rule. -/
def value (item : ρ) : Grammar ρ Value ν Value :=
  ((((null.orElse boolean).orElse number).orElse (string.map .string)).orElse (object item)).orElse
    (array item)

/-- A value and nothing but white space after it. -/
def document (item : ρ) : Grammar ρ Value ν Value :=
  (value item).skip (trim ((pattern endPattern).map fun _ => ()))

end

/-! ## Documents -/

/-- The grammar of documents, with one rule, which reads a value. -/
def documentGrammar : Grammar Unit Value Empty Value := document ()

/-- What the rule reads. -/
def valueRule : Unit → Grammar Unit Value Empty Value := fun () => value ()

/-- Read a document from a text.  Each rule call and each turn of a repetition goes on behind a
byte, so the length of the text bounds them. -/
def parseText (t : String) : Option (Except ParseError Value) :=
  let c := Cursor.start t
  (documentGrammar.run valueRule (c.bytes.length + 2) ⟨c, []⟩).map (·.1)

/-- Read a document from a tokenizer, with a bound on the depth of the document and on the length of
its arrays and objects. -/
def parseTokens {σ : Type} [Source σ] (bound : Nat) (t : Tokenizer σ) :
    Option (Except ParseError Value × Tokenizer σ) :=
  (documentGrammar.run valueRule bound ⟨Stream.start t, []⟩).map fun (result, s) =>
    (result, s.input.tokenizer)

end StreamParser.Json
