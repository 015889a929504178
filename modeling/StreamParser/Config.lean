import StreamParser.Error

/-!
# Configuration of a tokenizer

The capacity of the window bounds the longest token, the capacity of the cache the number of
patterns that stay compiled.  Neither may be zero.
-/

namespace StreamParser

/-- The configuration of a tokenizer. -/
structure Config where
  /-- The number of bytes in the window. -/
  bufferCapacity : Nat
  /-- The number of patterns in the cache. -/
  cacheCapacity : Nat
  /-- The regular expression of what is skipped before a token. -/
  skipPattern : Option String
  deriving DecidableEq, Repr

namespace Config

/-- The configuration that is used when nothing else is said: white space is skipped. -/
def standard : Config := ⟨65536, 16, some "\\s*"⟩

/-- Refuse a configuration that no tokenizer can have. -/
def validate (c : Config) : Except ParseError Unit :=
  if c.bufferCapacity = 0 then .error (.invalidArgument "buffer_capacity must be at least 1")
  else if c.cacheCapacity = 0 then .error (.invalidArgument "cache_capacity must be at least 1")
  else .ok ()

end Config

end StreamParser
