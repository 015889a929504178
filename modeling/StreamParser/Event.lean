/-!
# Events

What a tokenizer and its cache of patterns tell about their work.  Every event has a level, a
target, a wording and fields, which are what a log shows of it.
-/

namespace StreamParser

/-- One thing that happened. -/
inductive Event
  /-- A pattern was found in the cache. -/
  | cacheHit (pattern : String)
  /-- A pattern was not found in the cache. -/
  | cacheMiss (pattern : String)
  /-- A pattern is dropped from the cache. -/
  | evicting (pattern : String)
  /-- A token was consumed. -/
  | matched (pattern token : String)
  /-- The tokenizer is closed. -/
  | closing (position : Nat)
  /-- Marks were given up. -/
  | committed (position dropped : Nat)
  /-- The window has no room for the bytes that are needed. -/
  | noRoom (pattern : String) (capacity pinned : Nat)
  /-- The window is filled for the first time. -/
  | initialFill (capacity : Nat)
  /-- The window was compacted and is filled again. -/
  | refilling (dropped kept : Nat)
  /-- The source has ended. -/
  | endOfInput (position : Nat)
  deriving DecidableEq, Repr

namespace Event

/-- How much attention the event asks for. -/
def level : Event → String
  | closing _ => "DEBUG"
  | endOfInput _ => "DEBUG"
  | noRoom _ _ _ => "WARN"
  | _ => "TRACE"

/-- Which part of the program the event comes from. -/
def target : Event → String
  | cacheHit _ => "braid::pattern"
  | cacheMiss _ => "braid::pattern"
  | evicting _ => "braid::pattern"
  | _ => "braid::tokenizer"

/-- The wording of the event. -/
def message : Event → String
  | cacheHit _ => "cache hit"
  | cacheMiss _ => "cache miss"
  | evicting _ => "evicting"
  | matched _ _ => "matched"
  | closing _ => "closing"
  | committed _ _ => "committed"
  | noRoom _ _ _ => "no room left in the buffer"
  | initialFill _ => "initial fill"
  | refilling _ _ => "refilling"
  | endOfInput _ => "end of input"

/-- The names and values that belong to the event. -/
def fields : Event → List (String × String)
  | cacheHit p => [("pattern", p)]
  | cacheMiss p => [("pattern", p)]
  | evicting p => [("pattern", p)]
  | matched p t => [("pattern", p), ("token", t)]
  | closing n => [("position", toString n)]
  | committed n d => [("position", toString n), ("dropped", toString d)]
  | noRoom p c n => [("pattern", p), ("capacity", toString c), ("pinned", toString n)]
  | initialFill c => [("capacity", toString c)]
  | refilling d k => [("dropped", toString d), ("kept", toString k)]
  | endOfInput n => [("position", toString n)]

end Event

end StreamParser
