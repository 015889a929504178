import StreamParser.Regex.Tree
import StreamParser.Text.CodePoints.Name
import StreamParser.Text.CodePoints.Space

/-!
# Reading a regular expression

`Tree.read` reads the text of a regular expression, or finds the first fault in it.

The reader goes through the text once.  `Place` is where it stands; each function below reads one
construct and moves the place behind it.  Where spaces and comments are ignored, `skipSpace` goes
over them.  Groups and classes nest, so their readers call themselves; the last argument bounds
the number of calls, and the length of the text is enough, as every call goes on behind a
character.
-/

namespace StreamParser.Regex

/-- Where a reader stands. -/
structure Place where
  /-- The characters that have not been read. -/
  rest : List Char
  /-- The number of bytes read. -/
  offset : Nat
  /-- Spaces and comments are ignored. -/
  ignoreSpace : Bool
  /-- The names of groups so far. -/
  names : List String

/-- A step of reading. -/
abbrev Reader := StateT Place (Except Fault)

namespace Reader

/-- White space of any script. -/
def isSpace (c : Char) : Bool := CodePoints.space.contains c.toNat

/-- The number of bytes read. -/
def offset : Reader Nat := return (← get).offset

/-- The next character, if there is one. -/
def peek : Reader (Option Char) := return (← get).rest.head?

/-- The text has been read to its end. -/
def atEnd : Reader Bool := return (← get).rest.isEmpty

/-- The next character is `c`. -/
def at? (c : Char) : Reader Bool := return (← peek) == some c

/-- Report a fault. -/
def fault {α : Type} (kind : FaultKind) (span : Span) : Reader α := throw ⟨kind, span⟩

/-- The stretch from `start` to where the reader stands. -/
def spanFrom (start : Nat) : Reader Span := return ⟨start, ← offset⟩

/-- The empty stretch where the reader stands. -/
def spanHere : Reader Span := return ⟨← offset, ← offset⟩

/-- The stretch of the next character. -/
def spanNext : Reader Span := do
  let p ← get
  return ⟨p.offset, p.offset + (p.rest.head?.map Char.utf8Size).getD 0⟩

/-- Go over one character. -/
def skip : Reader Unit := modify fun p =>
  match p.rest with
  | [] => p
  | c :: rest => { p with rest := rest, offset := p.offset + c.utf8Size }

/-- The characters after a run of spaces and comments, and the number of bytes in the run. -/
def dropSpace : (inComment : Bool) → Nat → List Char → List Char × Nat
  | _, n, [] => ([], n)
  | true, n, c :: rest => dropSpace (c != '\n') (n + c.utf8Size) rest
  | false, n, c :: rest =>
    if isSpace c then dropSpace false (n + c.utf8Size) rest
    else if c = '#' then dropSpace true (n + c.utf8Size) rest
    else (c :: rest, n)

/-- Go over spaces and comments, where they are ignored. -/
def skipSpace : Reader Unit := modify fun p =>
  if p.ignoreSpace then
    let (rest, n) := dropSpace false 0 p.rest
    { p with rest := rest, offset := p.offset + n }
  else p

/-- Go over one character and the space after it; whether there is a character then. -/
def advance : Reader Bool := do
  skip
  skipSpace
  return !(← atEnd)

/-- Go over the characters of `t`, if they come next. -/
def skipText? (t : String) : Reader Bool := do
  if t.toList.isPrefixOf (← get).rest then
    for _ in t.toList do skip
    return true
  else return false

/-- The character after the next one, as far as it can be told without reading: where spaces are
ignored, one that is neither a space nor the first sign of a comment. -/
def peekSecond : Reader (Option Char) := do
  let p ← get
  let after := p.rest.drop 1
  if p.ignoreSpace then
    match go false after with
    | some c => return some c
    | none => return after.head?
  else return after.head?
where
  /-- The first character of a list that is no space, and no number sign outside a comment. -/
  go : Bool → List Char → Option Char
    | _, [] => none
    | inComment, c :: rest =>
      if isSpace c then go inComment rest
      else if !inComment && c = '#' then go true rest
      else some c

/-! ## Numbers -/

/-- The digits that come next, with the space that is ignored between them. -/
def digits : Nat → List Char → Reader (List Char)
  | 0, acc => return acc.reverse
  | n + 1, acc => do
    match ← peek with
    | some c =>
      if c.isDigit then
        let _ ← advance
        digits n (c :: acc)
      else return acc.reverse
    | none => return acc.reverse

/-- Go over white space, whether spaces are ignored or not. -/
def skipBlanks : Nat → Reader Unit
  | 0 => return ()
  | n + 1 => do
    match ← peek with
    | some c => if isSpace c then do skip; skipBlanks n else return ()
    | none => return ()

/-- The value of a list of digits. -/
def decimalValue (l : List Char) : Nat := l.foldl (fun n c => 10 * n + (c.toNat - '0'.toNat)) 0

/-- A decimal number of at most 32 bits with blanks around it; none if there are no digits. -/
def decimal? : Reader (Except Fault Nat) := do
  let length := (← get).rest.length
  skipBlanks length
  let start ← offset
  let ds ← digits length []
  let span ← spanFrom start
  skipBlanks length
  if ds.isEmpty then return .error ⟨.repetitionCountEmpty, span⟩
  else if decimalValue ds < 0x100000000 then return .ok (decimalValue ds)
  else return .error ⟨.decimalInvalid, span⟩

/-! ## Escapes -/

/-- The value of a hexadecimal digit. -/
def hexDigit? (c : Char) : Option Nat :=
  if c.isDigit then some (c.toNat - '0'.toNat)
  else if 'a' ≤ c ∧ c ≤ 'f' then some (c.toNat - 'a'.toNat + 10)
  else if 'A' ≤ c ∧ c ≤ 'F' then some (c.toNat - 'A'.toNat + 10)
  else none

/-- The character with a code point, if there is one. -/
def char? (n : Nat) : Option Char := if n.isValidChar then some (Char.ofNat n) else none

/-- Exactly `n + 1` hexadecimal digits; `value` is that of the digits before. -/
def hexDigits : Nat → (value : Nat) → Reader Nat
  | n, value => do
    match ← peek with
    | none => fault .escapeUnfinished (← spanHere)
    | some c =>
      match hexDigit? c with
      | none => fault .hexInvalidDigit (← spanNext)
      | some d =>
        let _ ← advance
        match n with
        | 0 => return 16 * value + d
        | n + 1 => hexDigits n (16 * value + d)

/-- Hexadecimal digits up to a closing brace: how many there are, and their value. -/
def hexUntilBrace (brace : Nat) : Nat → (count value : Nat) → Reader (Nat × Nat)
  | 0, count, value => return (count, value)
  | n + 1, count, value => do
    match ← peek with
    | none => fault .escapeUnfinished (← spanFrom brace)
    | some c =>
      if c = '}' then return (count, value)
      else
        match hexDigit? c with
        | none => fault .hexInvalidDigit (← spanNext)
        | some d =>
          let _ ← advance
          hexUntilBrace brace n (count + 1) (16 * value + d)

/-- The rest of a hexadecimal escape that begins at `start`, from its letter on.  Without braces it
has as many digits as the letter asks for. -/
def hexEscape (start : Nat) (letter : Char) : Reader Literal := do
  if !(← advance) then fault .escapeUnfinished (← spanHere)
  let first ← offset
  if ← at? '{' then
    let _ ← advance
    let (count, value) ← hexUntilBrace first ((← get).rest.length + 1) 0 0
    let stop ← offset
    let _ ← advance
    if count = 0 then fault .hexEmpty (← spanFrom first)
    match char? value with
    | some c => return ⟨← spanFrom start, c, false⟩
    | none => fault .hexInvalid ⟨first + 1, stop⟩
  else
    let more := if letter = 'x' then 1 else if letter = 'u' then 3 else 7
    let value ← hexDigits more 0
    match char? value with
    | some c => return ⟨← spanFrom start, c, letter = 'x'⟩
    | none => fault .hexInvalid (← spanFrom first)

/-- The characters up to a closing brace. -/
def untilBrace : Nat → List Char → Reader (List Char)
  | 0, acc => return acc.reverse
  | n + 1, acc => do
    match ← peek with
    | none => fault .escapeUnfinished (← spanHere)
    | some '}' => return acc.reverse
    | some c =>
      let _ ← advance
      untilBrace n (c :: acc)

/-- Cut a list at the first place where `mark` stands. -/
def cutAt? (mark : List Char) : List Char → Option (List Char × List Char)
  | [] => none
  | c :: rest =>
    if mark.isPrefixOf (c :: rest) then some ([], (c :: rest).drop mark.length)
    else (cutAt? mark rest).map fun (a, b) => (c :: a, b)

/-- The property that is named between braces. -/
def propertyOf (name : List Char) : Property :=
  match ((cutAt? ['!', '='] name).or (cutAt? [':'] name)).or (cutAt? ['='] name) with
  | some (n, v) => .valued (String.ofList n) (String.ofList v)
  | none => .named (String.ofList name)

/-- The rest of a class of a property, from its letter on: the property. -/
def property : Reader Property := do
  if !(← advance) then fault .escapeUnfinished (← spanHere)
  match ← peek with
  | some '{' =>
    let _ ← advance
    let name ← untilBrace ((← get).rest.length + 1) []
    skip
    return propertyOf name
  | some '\\' => fault .propertyInvalid (← spanNext)
  | some c =>
    let _ ← advance
    return .named (String.singleton c)
  | none => fault .escapeUnfinished (← spanHere)

/-- The letters and hyphens that come next, with the space that is ignored between them. -/
def edgeName : Nat → List Char → Reader (List Char)
  | 0, acc => return acc.reverse
  | n + 1, acc => do
    match ← peek with
    | some c =>
      if c.isAlpha || c = '-' then
        let _ ← advance
        edgeName n (c :: acc)
      else return acc.reverse
    | none => return acc.reverse

/-- The name of a word edge in braces, which may follow the escape of a word boundary that begins at
`start`.  Braces that hold something else are left for a counted repetition. -/
def namedEdge? (start : Nat) : Reader (Option WordEdge) := do
  let before ← get
  if !(← advance) then fault .wordEdgeOrRepetitionUnclosed (← spanFrom start)
  let first ← offset
  match ← peek with
  | some c =>
    if c.isAlpha || c = '-' then
      let name ← edgeName ((← get).rest.length) []
      if !(← at? '}') then fault .wordEdgeUnclosed (← spanFrom before.offset)
      let stop ← offset
      skip
      match String.ofList name with
      | "start" => return some .start
      | "end" => return some .finish
      | "start-half" => return some .startHalf
      | "end-half" => return some .finishHalf
      | _ => fault .wordEdgeUnknown ⟨first, stop⟩
    else do
      set before
      return none
  | none => return none

/-- A single construct that no other one is part of. -/
inductive Primitive
  | literal (l : Literal)
  | dot (span : Span)
  | anchor (span : Span) (a : Anchor)
  | letter (span : Span) (kind : LetterClass) (negated : Bool)
  | property (span : Span) (p : Property) (negated : Bool)

namespace Primitive

/-- The stretch of text. -/
def span : Primitive → Span
  | literal l => l.span
  | dot s => s
  | anchor s _ => s
  | letter s _ _ => s
  | property s _ _ => s

/-- The construct as an expression. -/
def toTree : Primitive → Tree
  | literal l => .literal l
  | dot s => .dot s
  | anchor s a => .anchor s a
  | letter s k n => .letter s k n
  | property s p n => .property s p n

/-- The construct as a part of a class. -/
def toClassItem : Primitive → Reader ClassItem
  | literal l => return .literal l
  | letter s k n => return .letter s k n
  | property s p n => return .property s p n
  | dot s => fault .classEscapeInvalid s
  | anchor s _ => fault .classEscapeInvalid s

/-- The construct as a bound of a range. -/
def toLiteral : Primitive → Reader Literal
  | literal l => return l
  | p => fault .classRangeNotLiteral p.span

end Primitive

/-- The character that an escaped letter stands for. -/
def controlChar? : Char → Option Char
  | 'a' => some '\x07'
  | 'f' => some '\x0C'
  | 't' => some '\t'
  | 'n' => some '\n'
  | 'r' => some '\r'
  | 'v' => some '\x0B'
  | _ => none

/-- The assertion that an escaped character stands for. -/
def anchor? : Char → Option Anchor
  | 'A' => some .textStart
  | 'z' => some .textEnd
  | 'b' => some (.word .boundary)
  | 'B' => some (.word .interior)
  | '<' => some (.word .start)
  | '>' => some (.word .finish)
  | _ => none

/-- The class that an escaped letter stands for, and whether its complement is meant. -/
def letterClass? : Char → Option (LetterClass × Bool)
  | 'd' => some (.digit, false)
  | 'D' => some (.digit, true)
  | 's' => some (.space, false)
  | 'S' => some (.space, true)
  | 'w' => some (.word, false)
  | 'W' => some (.word, true)
  | _ => none

/-- A character of ASCII that stands for itself after a backslash. -/
def isEscapable (c : Char) : Bool :=
  c.toNat < 0x80 && !c.isAlphanum && c != '<' && c != '>'

/-- An escape, from its backslash on. -/
def escape : Reader Primitive := do
  let start ← offset
  skip
  match ← peek with
  | none => fault .escapeUnfinished (← spanFrom start)
  | some c =>
    if c.isDigit then fault .backreference ⟨start, (← spanNext).stop⟩
    if c = 'x' || c = 'u' || c = 'U' then return .literal (← hexEscape start c)
    if c = 'p' || c = 'P' then
      let p ← property
      return .property (← spanFrom start) p (c = 'P')
    skip
    let span ← spanFrom start
    if let some (k, n) := letterClass? c then return .letter span k n
    if isEscapable c then return .literal ⟨span, c, false⟩
    if let some d := controlChar? c then return .literal ⟨span, d, false⟩
    match anchor? c with
    | none => fault .escapeUnknown span
    | some a =>
      if c = 'b' && (← at? '{') then
        match ← namedEdge? start with
        | some e => return .anchor (← spanFrom start) (.word e)
        | none => return .anchor span a
      else return .anchor span a

/-! ## Classes -/

/-- The classes with a name. -/
def asciiClass? : String → Option AsciiClass
  | "alnum" => some .alnum
  | "alpha" => some .alpha
  | "ascii" => some .ascii
  | "blank" => some .blank
  | "cntrl" => some .cntrl
  | "digit" => some .digit
  | "graph" => some .graph
  | "lower" => some .lower
  | "print" => some .print
  | "punct" => some .punct
  | "space" => some .space
  | "upper" => some .upper
  | "word" => some .word
  | "xdigit" => some .xdigit
  | _ => none

/-- A named class that comes next; otherwise nothing is read. -/
def namedClass? : Reader (Option ClassItem) := do
  let before ← get
  match before.rest with
  | '[' :: ':' :: rest =>
    let (negated, rest) :=
      match rest with
      | '^' :: rest => (true, rest)
      | rest => (false, rest)
    let name := rest.takeWhile (· != ':')
    match rest.dropWhile (· != ':'), asciiClass? (String.ofList name) with
    | ':' :: ']' :: rest, some kind =>
      -- All that has been read is ASCII, so a character is a byte.
      let length := before.rest.length - rest.length
      set { before with rest := rest, offset := before.offset + length }
      return some (.ascii ⟨before.offset, before.offset + length⟩ kind negated)
    | _, _ => return none
  | _ => return none

/-- A class that is being read. -/
structure OpenClass where
  /-- The class up to its first item. -/
  span : Span
  negated : Bool
  /-- The operation that the items so far are the right side of, with its left side. -/
  pending : Option (ClassOp × ClassItem)
  /-- Where the items begin. -/
  first : Nat
  /-- The items so far, the last one first. -/
  items : List ClassItem

namespace OpenClass

/-- One more item. -/
def push (c : OpenClass) (i : ClassItem) : OpenClass := { c with items := i :: c.items }

/-- The items so far as a single one. -/
def item (c : OpenClass) : ClassItem :=
  match c.items with
  | [] => .empty ⟨c.first, c.first⟩
  | [i] => i
  | last :: before =>
    .union ⟨((before.getLast?.getD last).span).start, last.span.stop⟩ (last :: before).reverse

/-- The items so far together with the operation that they are the right side of. -/
def whole (c : OpenClass) : ClassItem :=
  match c.pending with
  | none => c.item
  | some (op, left) => .operation ⟨left.span.start, c.item.span.stop⟩ op left c.item

end OpenClass

/-- The beginning of a class: the bracket, the sign of a complement, and the hyphens or the closing
bracket that stand for themselves. -/
def openClass : Reader OpenClass := do
  let start ← offset
  if !(← advance) then fault .classUnclosed (← spanFrom start)
  let negated ← at? '^'
  if negated then
    if !(← advance) then fault .classUnclosed (← spanFrom start)
  let first ← offset
  let hyphens ← go start ((← get).rest.length) []
  let mut c : OpenClass := ⟨⟨start, start⟩, negated, none, first, hyphens⟩
  if hyphens.isEmpty && (← at? ']') then
    c := c.push (.literal ⟨← spanNext, ']', false⟩)
    if !(← advance) then fault .classUnclosed (← spanFrom start)
  return { c with span := ← spanFrom start }
where
  /-- Hyphens at the beginning, the last one first. -/
  go (start : Nat) : Nat → List ClassItem → Reader (List ClassItem)
    | 0, acc => return acc
    | n + 1, acc => do
      if ← at? '-' then
        let hyphen : ClassItem := .literal ⟨← spanNext, '-', false⟩
        if !(← advance) then fault .classUnclosed ⟨start, start⟩
        go start n (hyphen :: acc)
      else return acc

/-- A character or an escape in a class. -/
def classPrimitive : Reader Primitive := do
  match ← peek with
  | some '\\' => escape
  | some c =>
    let span ← spanNext
    skip
    return .literal ⟨span, c, false⟩
  | none => fault .escapeUnfinished (← spanHere)

/-- A character, an escape or a range in the class `c`. -/
def classRange (c : OpenClass) : Reader ClassItem := do
  let low ← classPrimitive
  skipSpace
  if ← atEnd then fault .classUnclosed c.span
  let second ← peekSecond
  if !(← at? '-') || second == some ']' || second == some '-' then low.toClassItem
  else
    if !(← advance) then fault .classUnclosed c.span
    let high ← classPrimitive
    let span : Span := ⟨low.span.start, high.span.stop⟩
    let low ← low.toLiteral
    let high ← high.toLiteral
    if high.char < low.char then fault .classRangeInvalid span
    return .range span low high

/-- The operation whose sign comes next. -/
def classOp? : Reader (Option ClassOp) := do
  if ← skipText? "&&" then return some .intersection
  if ← skipText? "--" then return some .difference
  if ← skipText? "~~" then return some .symmetricDifference
  return none

/-- The rest of a class, up to its closing bracket: its span, whether its complement is meant, and
what it holds. -/
def classBody : Nat → OpenClass → Reader (Span × Bool × ClassItem)
  | 0, c => fault .classUnclosed c.span
  | n + 1, c => do
    skipSpace
    match ← peek with
    | none => fault .classUnclosed c.span
    | some '[' =>
      match ← namedClass? with
      | some i => classBody n (c.push i)
      | none =>
        let (span, negated, item) ← classBody n (← openClass)
        classBody n (c.push (.bracketed span negated item))
    | some ']' =>
      skip
      return (← spanFrom c.span.start, c.negated, c.whole)
    | some _ =>
      match ← classOp? with
      | some op =>
        classBody n { c with pending := some (op, c.whole), first := ← offset, items := [] }
      | none => classBody n (c.push (← classRange c))

/-- A class, from its bracket on. -/
def bracketedClass : Reader Tree := do
  let length := (← get).rest.length
  let (span, negated, item) ← classBody (length + 1) (← openClass)
  return .bracketed span negated item

/-! ## Groups -/

/-- A flag. -/
def flag? : Char → Option Flag
  | 'i' => some .caseInsensitive
  | 'm' => some .multiLine
  | 's' => some .dotMatchesLineEnd
  | 'U' => some .swapGreed
  | 'u' => some .unicode
  | 'R' => some .crlf
  | 'x' => some .ignoreSpace
  | _ => none

/-- A list of flags up to a colon or a closing parenthesis.  `dangling` is the sign that takes flags
back, if it was read last. -/
def flagItems : Nat → (dangling : Option Span) → List FlagItem → Reader (List FlagItem)
  | 0, _, acc => return acc.reverse
  | n + 1, dangling, acc => do
    match ← peek with
    | none => fault .flagMissing (← spanHere)
    | some c =>
      if c = ':' || c = ')' then
        if let some s := dangling then fault .flagDanglingNegation s
        return acc.reverse
      let span ← spanNext
      if c = '-' then
        if acc.contains .negation then fault .flagRepeatedNegation span
        skip
        flagItems n (some span) (.negation :: acc)
      else
        match flag? c with
        | none => fault .flagUnknown span
        | some f =>
          if acc.contains (.flag f) then fault .flagDuplicate span
          skip
          flagItems n none (.flag f :: acc)

/-- A character that may stand in the name of a group. -/
def isNameChar (first : Bool) (c : Char) : Bool :=
  c = '_' || CodePoints.letter.contains c.toNat ||
    (!first && (c = '.' || c = '[' || c = ']' || CodePoints.number.contains c.toNat))

/-- The characters of the name of a group up to the closing angle bracket. -/
def nameChars : Nat → List Char → Reader (List Char)
  | 0, acc => return acc.reverse
  | n + 1, acc => do
    match ← peek with
    | none => fault .captureNameUnclosed (← spanHere)
    | some '>' => return acc.reverse
    | some c =>
      if !isNameChar acc.isEmpty c then fault .captureNameInvalid (← spanNext)
      skip
      nameChars n (c :: acc)

/-- The name of a group with its closing bracket.  No two groups have the same name. -/
def groupName : Reader Unit := do
  let start ← offset
  let name := String.ofList (← nameChars ((← get).rest.length + 1) [])
  let span ← spanFrom start
  skip
  if name.isEmpty then fault .captureNameEmpty ⟨start, start⟩
  if (← get).names.contains name then fault .captureNameDuplicate span
  modify fun p => { p with names := name :: p.names }

/-- What begins with a parenthesis. -/
inductive Opening
  /-- Flags for the rest of the group around. -/
  | flags (span : Span) (items : List FlagItem)
  /-- A group, which begins with the parenthesis at `span`. -/
  | group (span : Span) (items : List FlagItem)

/-- The beginning of a group, or a list of flags, from the parenthesis on. -/
def opening : Reader Opening := do
  let parenthesis ← spanNext
  skip
  skipSpace
  let ahead ← (skipText? "?=" <||> skipText? "?!" <||> skipText? "?<=" <||> skipText? "?<!")
  if ahead then fault .lookAround (← spanFrom parenthesis.start)
  let inner ← spanHere
  if ← (skipText? "?P<" <||> skipText? "?<") then
    groupName
    return .group parenthesis []
  else if ← skipText? "?" then
    if ← atEnd then fault .groupUnclosed parenthesis
    let items ← flagItems ((← get).rest.length + 1) none []
    let closes ← at? ')'
    skip
    if closes then
      if items.isEmpty then fault .repetitionMissing inner
      return .flags (← spanFrom parenthesis.start) items
    else return .group parenthesis items
  else return .group parenthesis []

/-! ## Expressions -/

/-- What a repetition applies to: the last of the expressions read, and those before it. -/
def operand : List Tree → Reader (Tree × List Tree)
  | [] => do fault .repetitionMissing (← spanHere)
  | .empty _ :: _ => do fault .repetitionMissing (← spanHere)
  | .flags _ _ :: _ => do fault .repetitionMissing (← spanHere)
  | t :: before => return (t, before)

/-- A question mark after the sign of a repetition makes it prefer fewer times. -/
def greed : Reader Bool := do
  if ← at? '?' then do skip; return false else return true

/-- A repetition without numbers, from its sign on. -/
def simpleRepetition (c : Char) (trees : List Tree) : Reader (List Tree) := do
  let (t, before) ← operand trees
  skip
  let greedy ← greed
  let span ← spanFrom t.span.start
  let (least, most) : Nat × Option Nat :=
    if c = '?' then (0, some 1) else if c = '*' then (0, none) else (1, none)
  return .repetition span least most greedy t :: before

/-- The numbers of a counted repetition that begins at `start`, up to the closing brace. -/
def counts (start : Nat) : Reader (Nat × Option Nat) := do
  if !(← advance) then fault .repetitionCountUnclosed (← spanFrom start)
  let least ← decimal?
  if ← atEnd then fault .repetitionCountUnclosed (← spanFrom start)
  if ← at? ',' then
    if !(← advance) then fault .repetitionCountUnclosed (← spanFrom start)
    if ← at? '}' then return (← least, none)
    else
      let least ← least
      let most ← decimal?
      return (least, some (← most))
  else
    let n ← least
    return (n, some n)

/-- A counted repetition, from its brace on. -/
def countedRepetition (trees : List Tree) : Reader (List Tree) := do
  let start ← offset
  let (t, before) ← operand trees
  let (least, most) ← counts start
  if !(← at? '}') then fault .repetitionCountUnclosed (← spanFrom start)
  let _ ← advance
  let greedy ← greed
  if most.any (· < least) then fault .repetitionCountInvalid (← spanFrom start)
  return .repetition (← spanFrom t.span.start) least most greedy t :: before

/-- A construct that is neither a group, nor a class, nor a repetition. -/
def primitive (c : Char) : Reader Primitive := do
  if c = '\\' then escape
  else
    let span ← spanNext
    skip
    if c = '.' then return .dot span
    else if c = '^' then return .anchor span .lineStart
    else if c = '$' then return .anchor span .lineEnd
    else return .literal ⟨span, c, false⟩

/-- A group that is being read. -/
structure OpenGroup where
  /-- Its opening parenthesis; none for the whole expression. -/
  parenthesis : Option Span
  /-- Where the first branch begins. -/
  first : Nat
  /-- The branches that are complete, the last one first. -/
  branches : List Tree
  /-- Where the last branch begins. -/
  start : Nat
  /-- What has been read of the last branch, the last expression first. -/
  trees : List Tree

namespace OpenGroup

/-- A group with nothing read. -/
def init (parenthesis : Option Span) (start : Nat) : OpenGroup :=
  ⟨parenthesis, start, [], start, []⟩

/-- The last branch, which ends at `stop`. -/
def branch (g : OpenGroup) (stop : Nat) : Tree :=
  match g.trees with
  | [] => .empty ⟨g.start, stop⟩
  | [t] => t
  | ts => .concat ⟨g.start, stop⟩ ts.reverse

/-- What the group holds, when it ends at `stop`. -/
def whole (g : OpenGroup) (stop : Nat) : Tree :=
  match g.branches with
  | [] => g.branch stop
  | bs => .alternation ⟨g.first, stop⟩ (g.branch stop :: bs).reverse

end OpenGroup

/-- The rest of a group up to its closing parenthesis, which is not read, or of the whole
expression. -/
def groupBody : Nat → OpenGroup → Reader Tree
  | 0, g => return g.whole (← offset)
  | n + 1, g => do
    skipSpace
    match ← peek with
    | none =>
      if let some s := g.parenthesis then fault .groupUnclosed s
      return g.whole (← offset)
    | some '(' =>
      match ← opening with
      | .flags span items =>
        if let some b := FlagItem.state? .ignoreSpace false items then
          modify fun p => { p with ignoreSpace := b }
        groupBody n { g with trees := .flags span items :: g.trees }
      | .group parenthesis items =>
        let outer := (← get).ignoreSpace
        modify fun p =>
          { p with ignoreSpace := (FlagItem.state? .ignoreSpace false items).getD outer }
        let inner ← groupBody n (.init (some parenthesis) (← offset))
        modify fun p => { p with ignoreSpace := outer }
        skip
        let span ← spanFrom parenthesis.start
        groupBody n { g with trees := .group span items inner :: g.trees }
    | some ')' =>
      if g.parenthesis.isNone then fault .groupUnopened (← spanNext)
      return g.whole (← offset)
    | some '|' =>
      let branch := g.branch (← offset)
      skip
      groupBody n { g with branches := branch :: g.branches, start := ← offset, trees := [] }
    | some '[' => groupBody n { g with trees := (← bracketedClass) :: g.trees }
    | some '{' => groupBody n { g with trees := ← countedRepetition g.trees }
    | some c =>
      if c = '?' || c = '*' || c = '+' then
        groupBody n { g with trees := ← simpleRepetition c g.trees }
      else groupBody n { g with trees := (← primitive c).toTree :: g.trees }

end Reader

/-- The number of constructs that may be inside each other. -/
def Tree.depthLimit : Nat := 250

/-- Read the text of a regular expression. -/
def Tree.read (text : String) : Except Fault Tree := do
  let start : Place := ⟨text.toList, 0, false, []⟩
  let tree ← (Reader.groupBody (text.length + 1) (.init none 0)).run' start
  match tree.tooDeep? Tree.depthLimit with
  | some s => throw ⟨.nestedTooDeep Tree.depthLimit, s⟩
  | none => return tree

end StreamParser.Regex
