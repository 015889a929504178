import StreamParser.Input
import StreamParser.Text.Quoted

/-!
# Cursors

A cursor is a place in a text that is there as a whole.
-/

namespace StreamParser

/-- A place in a text. -/
structure Cursor where
  /-- The bytes of the text. -/
  bytes : List UInt8
  /-- The number of bytes before the place. -/
  position : Nat
  deriving DecidableEq, Repr

namespace Cursor

/-- The beginning of a text. -/
def start (text : String) : Cursor := ⟨Utf8.bytes text, 0⟩

/-- The text after the place. -/
def remaining (c : Cursor) : String := (Utf8.text? (c.bytes.drop c.position)).getD ""

/-- The place is the end of the text. -/
def isAtEnd (c : Cursor) : Bool := c.bytes.length ≤ c.position

/-- The cursor as it is shown to whoever looks for mistakes. -/
def shown (c : Cursor) : String :=
  String.join
    ["Cursor \x7b position: ", toString c.position, ", remaining: ", Quoted.encode c.remaining,
      " \x7d"]

/-- Match a pattern, and go behind what it matches. -/
def matchPattern (p : Pattern) (c : Cursor) : Except ParseError String × Cursor :=
  match p.matchAt c.bytes c.position true with
  | .error e => (.error (.pattern e), c)
  | .ok (.matched stop) =>
    match Utf8.text? ((c.bytes.take stop).drop c.position) with
    | some t => (.ok t, { c with position := stop })
    | none => (.error (.expected p.source c.position), c)
  | .ok _ => (.error (.expected p.source c.position), c)

/-- Going back costs nothing, so nothing has to be remembered but the place, and a commit has no
effect of its own. -/
instance : Input Cursor where
  Trial := Nat
  position := position
  matchPattern := matchPattern
  begin c := (c.position, c)
  succeeded _ c := c
  failed n e c := (e, { c with position := n })
  isTrying _ := true
  commit c := c
  failurePosition before _ := before.position

end Cursor

end StreamParser
