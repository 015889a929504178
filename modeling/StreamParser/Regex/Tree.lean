import StreamParser.Regex.Expr
import StreamParser.Regex.Fault

/-!
# Regular expressions as they are written

* `Tree` is a regular expression with every construct of its text in place: groups, flags, counted
  repetitions and classes of characters, each with the stretch of text that it was read from.
* `ClassItem` is what stands in a class between brackets.
* `Tree.tooDeep?` finds the first construct that is nested too deeply.
-/

namespace StreamParser.Regex

/-- A way to change the reading of a part of the expression. -/
inductive Flag
  | caseInsensitive
  | multiLine
  | dotMatchesLineEnd
  | swapGreed
  | unicode
  | crlf
  | ignoreSpace
  deriving DecidableEq, Repr

/-- What stands between the question mark and the end of a list of flags. -/
inductive FlagItem
  /-- The flags after this are taken back. -/
  | negation
  | flag (f : Flag)
  deriving DecidableEq, Repr

/-- What a list of flags says about a flag. -/
def FlagItem.state? (f : Flag) : (negated : Bool) → List FlagItem → Option Bool
  | _, [] => none
  | _, negation :: rest => state? f true rest
  | negated, flag g :: rest => if g = f then some (!negated) else state? f negated rest

/-- An assertion, before the flags say what a line is and what a word is. -/
inductive Anchor
  | lineStart
  | lineEnd
  | textStart
  | textEnd
  | word (edge : WordEdge)
  deriving DecidableEq, Repr

/-- A class that is written as a backslash and a letter. -/
inductive LetterClass
  | digit
  | space
  | word
  deriving DecidableEq, Repr

/-- A class that is written as a name between colons. -/
inductive AsciiClass
  | alnum | alpha | ascii | blank | cntrl | digit | graph | lower | print | punct | space | upper
  | word | xdigit
  deriving DecidableEq, Repr

/-- A class of the characters with a property. -/
inductive Property
  /-- A property that a character has or has not, or one of its categories or scripts. -/
  | named (name : String)
  /-- A property and the value that it has to have. -/
  | valued (name value : String)
  deriving DecidableEq, Repr

/-- A character. -/
structure Literal where
  span : Span
  char : Char
  /-- It is written as a byte: `x` and two hexadecimal digits. -/
  asByte : Bool
  deriving DecidableEq, Repr

/-- The operations on sets in a class. -/
inductive ClassOp
  | intersection
  | difference
  | symmetricDifference
  deriving DecidableEq, Repr

/-- What stands in a class. -/
inductive ClassItem
  | empty (span : Span)
  | literal (l : Literal)
  | range (span : Span) (first last : Literal)
  | ascii (span : Span) (kind : AsciiClass) (negated : Bool)
  | letter (span : Span) (kind : LetterClass) (negated : Bool)
  | property (span : Span) (p : Property) (negated : Bool)
  | bracketed (span : Span) (negated : Bool) (item : ClassItem)
  | union (span : Span) (items : List ClassItem)
  | operation (span : Span) (op : ClassOp) (left right : ClassItem)

/-- The stretch of text that the item was read from. -/
def ClassItem.span : ClassItem → Span
  | empty s => s
  | literal l => l.span
  | range s _ _ => s
  | ascii s _ _ => s
  | letter s _ _ => s
  | property s _ _ => s
  | bracketed s _ _ => s
  | union s _ => s
  | operation s _ _ _ => s

/-- A regular expression as it is written. -/
inductive Tree
  | empty (span : Span)
  /-- Flags for the rest of the group. -/
  | flags (span : Span) (items : List FlagItem)
  | literal (l : Literal)
  | dot (span : Span)
  | anchor (span : Span) (a : Anchor)
  | letter (span : Span) (kind : LetterClass) (negated : Bool)
  | property (span : Span) (p : Property) (negated : Bool)
  | bracketed (span : Span) (negated : Bool) (item : ClassItem)
  /-- At least `least` times, at most `most` times if there is a bound. -/
  | repetition (span : Span) (least : Nat) (most : Option Nat) (greedy : Bool) (tree : Tree)
  /-- A group, with the flags that hold in it. -/
  | group (span : Span) (items : List FlagItem) (tree : Tree)
  | concat (span : Span) (trees : List Tree)
  | alternation (span : Span) (trees : List Tree)

/-- The stretch of text that the expression was read from. -/
def Tree.span : Tree → Span
  | empty s => s
  | flags s _ => s
  | literal l => l.span
  | dot s => s
  | anchor s _ => s
  | letter s _ _ => s
  | property s _ _ => s
  | bracketed s _ _ => s
  | repetition s _ _ _ _ => s
  | group s _ _ => s
  | concat s _ => s
  | alternation s _ => s

mutual

/-- The first bracket, union or operation that is inside `room` others. -/
def ClassItem.tooDeep? (room : Nat) : ClassItem → Option Span
  | .bracketed s _ i => if room = 0 then some s else i.tooDeep? (room - 1)
  | .union s is => if room = 0 then some s else ClassItem.tooDeepAmong? (room - 1) is
  | .operation s _ l r =>
    if room = 0 then some s else (l.tooDeep? (room - 1)).or (r.tooDeep? (room - 1))
  | _ => none

/-- The same for a list. -/
def ClassItem.tooDeepAmong? (room : Nat) : List ClassItem → Option Span
  | [] => none
  | i :: is => (i.tooDeep? room).or (tooDeepAmong? room is)

end

mutual

/-- The first construct that is inside `room` others. -/
def Tree.tooDeep? (room : Nat) : Tree → Option Span
  | .bracketed s _ i => if room = 0 then some s else i.tooDeep? (room - 1)
  | .repetition s _ _ _ t => if room = 0 then some s else t.tooDeep? (room - 1)
  | .group s _ t => if room = 0 then some s else t.tooDeep? (room - 1)
  | .concat s ts => if room = 0 then some s else Tree.tooDeepAmong? (room - 1) ts
  | .alternation s ts => if room = 0 then some s else Tree.tooDeepAmong? (room - 1) ts
  | _ => none

/-- The same for a list. -/
def Tree.tooDeepAmong? (room : Nat) : List Tree → Option Span
  | [] => none
  | t :: ts => (t.tooDeep? room).or (tooDeepAmong? room ts)

end

end StreamParser.Regex
