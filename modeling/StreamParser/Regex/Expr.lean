import StreamParser.Text.CodePoints

/-!
# Regular expressions with priorities

* `Look` is an assertion about the bytes around a position; `Look.holds` decides it from the byte
  before and the byte after, either of which may be missing.
* `Expr` is the core of a regular expression: sets of characters, assertions, sequences,
  repetitions, and choices of which the first alternative is preferred.
* `Expr.repeated` is the counted repetition in the form in which it is matched.
-/

namespace StreamParser

/-- A byte that belongs to words: a letter, a digit or the underscore, all of ASCII. -/
def isWordByte (b : UInt8) : Bool :=
  (0x30 ≤ b && b ≤ 0x39) || (0x41 ≤ b && b ≤ 0x5A) || b == 0x5F || (0x61 ≤ b && b ≤ 0x7A)

/-- The places that are told apart by the words beside them. -/
inductive WordEdge
  /-- A word begins or ends. -/
  | boundary
  /-- No word begins or ends. -/
  | interior
  /-- A word begins. -/
  | start
  /-- A word ends. -/
  | finish
  /-- No word comes before. -/
  | startHalf
  /-- No word comes after. -/
  | finishHalf
  deriving DecidableEq, Repr

/-- A place is such an edge, given whether there is a word before it and after it. -/
def WordEdge.holds : WordEdge → (before after : Bool) → Bool
  | .boundary, p, n => p != n
  | .interior, p, n => p == n
  | .start, p, n => !p && n
  | .finish, p, n => p && !n
  | .startHalf, p, _ => !p
  | .finishHalf, _, n => !n

/-- An assertion about a position. -/
inductive Look
  /-- Nothing comes before. -/
  | textStart
  /-- Nothing comes after. -/
  | textEnd
  /-- A line begins, where lines end in a line feed. -/
  | lineStart
  /-- A line ends, where lines end in a line feed. -/
  | lineEnd
  /-- A line begins, where a carriage return, a line feed or both end a line. -/
  | crlfLineStart
  /-- A line ends, where a carriage return, a line feed or both end a line. -/
  | crlfLineEnd
  /-- A word edge; `unicode` tells whether words are made of all letters or of ASCII alone. -/
  | word (unicode : Bool) (edge : WordEdge)
  deriving DecidableEq, Repr

namespace Look

/-- The assertion holds between two bytes.  Of the words only those of ASCII are seen here: where
words of all letters are asked for, a matcher gives up at a byte beyond ASCII. -/
def holds : Look → (before after : Option UInt8) → Bool
  | textStart, p, _ => p.isNone
  | textEnd, _, n => n.isNone
  | lineStart, p, _ => p.isNone || p == some 0x0A
  | lineEnd, _, n => n.isNone || n == some 0x0A
  | crlfLineStart, p, n => p.isNone || p == some 0x0A || (p == some 0x0D && n != some 0x0A)
  | crlfLineEnd, p, n => n.isNone || n == some 0x0D || (n == some 0x0A && p != some 0x0D)
  | word _ e, p, n => e.holds (p.any isWordByte) (n.any isWordByte)

/-- The assertion holds after a byte, whatever comes next.  Of the line starts, the one after a
carriage return is left out: it depends on the byte that follows. -/
def holdsAfter (before : Option UInt8) : Look → Bool
  | textStart => before.isNone
  | lineStart => before.isNone || before == some 0x0A
  | crlfLineStart => before.isNone || before == some 0x0A
  | word _ .startHalf => !before.any isWordByte
  | _ => false

/-- The assertion asks for words of all letters. -/
def isUnicodeWord : Look → Bool
  | word u _ => u
  | _ => false

end Look

/-- A regular expression.  A choice prefers its first alternative. -/
inductive Expr
  /-- The empty text. -/
  | empty
  /-- One character of a set. -/
  | chars (set : CodePoints)
  /-- The empty text at a place where an assertion holds. -/
  | look (l : Look)
  /-- One after the other. -/
  | seq (first second : Expr)
  /-- The first, or else the second. -/
  | alt (first second : Expr)
  /-- At least `least` times, and at most `most` times or without bound.  Once the least number is
  reached, `greedy` says whether one more time is preferred to going on. -/
  | rep (greedy : Bool) (least : Nat) (most : Option Nat) (e : Expr)
  deriving DecidableEq, Repr

namespace Expr

/-- Equality, where what is the same object need not be looked at. -/
instance (priority := high) decEqShared : DecidableEq Expr
  | rep g l m e, rep g' l' m' e' =>
    if h : g = g' ∧ l = l' ∧ m = m' then
      @decidable_of_iff _ (e = e') (by simp [h])
        (withPtrEqDecEq e e' fun () => instDecidableEqExpr e e')
    else .isFalse fun eq => h (by cases eq; exact ⟨rfl, rfl, rfl⟩)
  | a, b => withPtrEqDecEq a b fun () => instDecidableEqExpr a b

/-- A number by which many lists of expressions can be told apart at a glance: it is made of the
numbers of repetitions. -/
def rank (l : List Expr) : Nat :=
  l.foldl (fun n e =>
    match e with
    | rep _ least most _ => (31 * n + least + most.getD 0 + 2) % 1000003
    | _ => (31 * n + 1) % 1000003) 0

/-- All of a list, one after the other. -/
def sequence : List Expr → Expr
  | [] => empty
  | [e] => e
  | e :: rest => seq e (sequence rest)

/-- The first of a list that can be matched; none of the empty list. -/
def choice : List Expr → Expr
  | [] => chars CodePoints.empty
  | [e] => e
  | e :: rest => alt e (choice rest)

/-- The number of constructs, where what is repeated counts for each time that is counted. -/
def size : Expr → Nat
  | empty => 1
  | chars _ => 1
  | look _ => 1
  | seq a b => a.size + b.size + 1
  | alt a b => a.size + b.size + 1
  | rep _ least none e => max least 1 * e.size + least + 1
  | rep _ least (some most) e => max least most * e.size + max least most + 1

/-- The expression has a match of length zero, as far as its assertions allow it. -/
def isNullable : Expr → Bool
  | empty => true
  | chars _ => false
  | look _ => true
  | seq a b => a.isNullable && b.isNullable
  | alt a b => a.isNullable || b.isNullable
  | rep _ least _ e => least == 0 || e.isNullable

/-- The expression reads nothing: it is made of assertions and of the empty text. -/
def readsNothing : Expr → Bool
  | empty => true
  | chars _ => false
  | look _ => true
  | seq a b => a.readsNothing && b.readsNothing
  | alt a b => a.readsNothing && b.readsNothing
  | rep _ _ most e => most.isSome && e.readsNothing

/-- Repeat an expression.  What can match the empty text is not repeated without bound from no time
on: it is matched at least once, or left out, so that a first time that matches the empty text goes
on behind the repetition. -/
def counted (greedy : Bool) (e : Expr) : (least : Nat) → (most : Option Nat) → Expr
  | 0, some 0 => empty
  | 1, some 1 => e
  | 0, none => if e.isNullable then rep greedy 0 (some 1) (rep greedy 1 none e)
    else rep greedy 0 none e
  | least, most => rep greedy least most e

/-- Repeat an expression at least `least` times, and at most `most` times or without bound.  What
reads nothing is matched once where it would be matched more often. -/
def repeated (greedy : Bool) (e : Expr) (least : Nat) (most : Option Nat) : Expr :=
  if e.readsNothing then counted greedy e (min least 1) (some ((most.map (min 1)).getD 1))
  else counted greedy e least most

/-- Some assertion of the expression has the property `p`. -/
def anyLook (p : Look → Bool) : Expr → Bool
  | empty => false
  | chars _ => false
  | look l => p l
  | seq a b => a.anyLook p || b.anyLook p
  | alt a b => a.anyLook p || b.anyLook p
  | rep _ _ _ e => e.anyLook p

end Expr

end StreamParser
