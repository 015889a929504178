import StreamParser.Event
import StreamParser.Pattern

/-!
# A bounded cache of patterns

The cache keeps the patterns that were asked for most recently.  `PatternCache.get` finds a pattern
or compiles it; a full cache drops the pattern that was asked for longest ago.

The patterns are kept by regular expression, and the regular expressions are kept a second time in
the order in which they were asked for.

Every compiled pattern has a number of its own, so that one that was found is told apart from one
that was compiled anew.

No memory is set aside for patterns beforehand, so no capacity is too great.
-/

namespace StreamParser

/-- A compiled pattern with its number. -/
structure Compiled where
  number : Nat
  pattern : Pattern
  deriving DecidableEq, Repr

/-- A cache of patterns. -/
structure PatternCache where
  /-- The greatest number of patterns that are kept. -/
  capacity : Nat
  /-- The patterns that are kept, each under its regular expression. -/
  entries : List (String × Compiled)
  /-- The regular expressions that are kept, the one asked for longest ago first. -/
  recency : List String
  /-- How many patterns have been compiled. -/
  compiled : Nat
  deriving DecidableEq, Repr

namespace PatternCache

/-- A cache without patterns. -/
def empty (capacity : Nat) : PatternCache := ⟨capacity, [], [], 0⟩

/-- The pattern that is kept under a regular expression. -/
def find? (c : PatternCache) (regex : String) : Option Compiled := c.entries.lookup regex

/-- A pattern is kept under the regular expression. -/
def contains (c : PatternCache) (regex : String) : Bool := (c.find? regex).isSome

/-- The number of patterns that are kept. -/
def size (c : PatternCache) : Nat := c.entries.length

/-- Make a regular expression that is kept the one that was asked for last. -/
def touch (c : PatternCache) (regex : String) : PatternCache :=
  if regex ∈ c.recency then { c with recency := c.recency.erase regex ++ [regex] } else c

/-- Keep no pattern under a regular expression. -/
def forget (c : PatternCache) (regex : String) : PatternCache :=
  { c with entries := c.entries.filter (·.1 != regex) }

/-- Drop the pattern that was asked for longest ago, and tell which one that is. -/
def evict (c : PatternCache) : PatternCache × List Event :=
  match c.recency with
  | [] => (c, [])
  | regex :: rest => ({ c with recency := rest }.forget regex, [.evicting regex])

/-- Keep a pattern under a regular expression, in place of any other, as the one that was asked for
last. -/
def put (c : PatternCache) (regex : String) (e : Compiled) : PatternCache :=
  { c with entries := (regex, e) :: (c.forget regex).entries, recency := c.recency ++ [regex] }

/-- Make room for one more pattern. -/
def makeRoom (c : PatternCache) : PatternCache × List Event :=
  if c.capacity ≤ c.size then c.evict else (c, [])

/-- Keep one more pattern; if there is no room for it, another one is dropped. -/
def insert (c : PatternCache) (regex : String) (e : Compiled) : PatternCache × List Event :=
  if c.capacity = 0 then (c, [])
  else (c.makeRoom.1.put regex e, c.makeRoom.2)

/-- The pattern of a regular expression: the one that is kept, or a new one, which is kept then.  A
regular expression that cannot be compiled changes nothing. -/
def get (c : PatternCache) (regex : String) :
    Except PatternError Compiled × PatternCache × List Event :=
  match c.find? regex with
  | some e => (.ok e, c.touch regex, [.cacheHit regex])
  | none =>
    match Pattern.compile regex with
    | .error e => (.error e, c, [.cacheMiss regex])
    | .ok p =>
      let e : Compiled := ⟨c.compiled, p⟩
      let (c, events) := { c with compiled := c.compiled + 1 }.insert regex e
      (.ok e, c, .cacheMiss regex :: events)

end PatternCache

end StreamParser
