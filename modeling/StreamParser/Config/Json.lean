import StreamParser.Config
import StreamParser.Json.Skim

/-!
# Configurations as JSON

`Config.toJson` writes a configuration as an object.  `Config.ofJson` reads an object or an array.
An object may have other members, which are ignored; what is missing is taken from the standard
configuration.  The items of an array stand in the order of the fields.
-/

namespace StreamParser.Config

open Json

/-- A member of the object that describes a configuration. -/
inductive Field
  | bufferCapacity
  | cacheCapacity
  | skipPattern
  deriving DecidableEq, Repr

namespace Field

/-- The key of the member. -/
def key : Field → String
  | bufferCapacity => "buffer_capacity"
  | cacheCapacity => "cache_capacity"
  | skipPattern => "skip_pattern"

/-- The member with a key. -/
def ofKey? (k : String) : Option Field :=
  [bufferCapacity, cacheCapacity, skipPattern].find? fun f => f.key == k

end Field

/-- The fields that have been read. -/
structure Given where
  bufferCapacity : Option Nat
  cacheCapacity : Option Nat
  skipPattern : Option (Option String)
  deriving DecidableEq, Repr

namespace Given

/-- No field. -/
def nothing : Given := ⟨none, none, none⟩

/-- A field has been read. -/
def has (g : Given) : Field → Bool
  | .bufferCapacity => g.bufferCapacity.isSome
  | .cacheCapacity => g.cacheCapacity.isSome
  | .skipPattern => g.skipPattern.isSome

/-- Read the value of a field. -/
def read (g : Given) (f : Field) : Read Given := fun l => do
  match f with
  | .bufferCapacity =>
    let (n, rest) ← natural l
    return ({ g with bufferCapacity := some n }, rest)
  | .cacheCapacity =>
    let (n, rest) ← natural l
    return ({ g with cacheCapacity := some n }, rest)
  | .skipPattern =>
    let (s, rest) ← stringOrNull l
    return ({ g with skipPattern := some s }, rest)

/-- The configuration with the fields that have been read, and standard ones for the others. -/
def complete (g : Given) : Config :=
  ⟨g.bufferCapacity.getD standard.bufferCapacity, g.cacheCapacity.getD standard.cacheCapacity,
    g.skipPattern.getD standard.skipPattern⟩

end Given

/-- A field that is given twice.  The place of the fault is behind the blanks after its second key,
and behind the object if it ends there. -/
def refuseRepeated {α : Type} (l : List UInt8) : Except Stop α :=
  match skipBlanks l with
  | 0x7D :: rest => stop .unsuitable rest
  | l => stop .unsuitable l

/-- The rest of an object, up to its closing brace.  The first argument bounds the number of
members. -/
def members : Nat → (first : Bool) → Given → Read Given
  | 0, _, _, l => stopAt .endInObject l
  | n + 1, first, g, l => do
    match ← key first l with
    | (none, rest) => return (g, rest)
    | (some k, rest) =>
      match Field.ofKey? k with
      | none =>
        let ((), rest) ← colon rest
        let ((), rest) ← skim rest
        members n false g rest
      | some f =>
        if g.has f then refuseRepeated rest
        else
          let ((), rest) ← colon rest
          let (g, rest) ← g.read f rest
          members n false g rest

/-- The rest of an array, with its closing bracket. -/
def items : Read Given := fun l => do
  let (buffer, l) ← item true natural l
  let (cache, l) ← item false natural l
  let (skip, l) ← item false stringOrNull l
  let ((), l) ← endOfItems l
  return (⟨buffer, cache, skip⟩, l)

/-- Read a configuration. -/
def read : Read Config := fun l =>
  match skipBlanks l with
  | [] => stopAt .endInValue []
  | 0x5B :: rest => (items rest).map fun (g, rest) => (g.complete, rest)
  | 0x7B :: rest =>
    (members (rest.length + 1) true .nothing rest).map fun (g, rest) => (g.complete, rest)
  | l => refuse l

/-- Read a text that is a configuration and nothing else. -/
def ofJson (t : String) : Except Fault Config :=
  let whole := Utf8.bytes t
  let result : Except Stop Config := do
    let (c, rest) ← read whole
    if (skipBlanks rest).isEmpty then return c
    else stopAt .trailingCharacters (skipBlanks rest)
  result.mapError (·.fault whole)

/-- Write a configuration. -/
def toJson (c : Config) : String :=
  String.join
    ["\x7b\"buffer_capacity\":", toString c.bufferCapacity,
      ",\"cache_capacity\":", toString c.cacheCapacity,
      ",\"skip_pattern\":",
      (match c.skipPattern with | some s => StringLiteral.encode s | none => "null"), "\x7d"]

end StreamParser.Config
