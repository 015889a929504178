import StreamParser.Json.Number
import StreamParser.Json.StringLiteral

/-!
# JSON of a known shape

Who knows which values to expect can read them without building a `Value`: `natural` and
`stringOrNull` read a value, `item` and `key` go from one entry of an array or an object to the
next, and `endOfItems` reads the end of an array.  What stands in the place of something else is
read over by `refuse`, so that the place of the fault is behind it.
-/

namespace StreamParser.Json

/-- Read the rest of a word. -/
def word : List UInt8 → Read Unit
  | [], l => .ok ((), l)
  | _ :: _, [] => stop .endInValue []
  | b :: w, c :: rest => if c = b then word w rest else stop .expectedWord rest

/-- Read what stands in the place of something else, and stop behind it.  Arrays and objects are not
read: the place is before them. -/
def refuse {α : Type} : List UInt8 → Except Stop α
  | 0x6E :: rest => do
    let ((), rest) ← word [0x75, 0x6C, 0x6C] rest
    stop .unsuitable rest
  | 0x74 :: rest => do
    let ((), rest) ← word [0x72, 0x75, 0x65] rest
    stop .unsuitable rest
  | 0x66 :: rest => do
    let ((), rest) ← word [0x61, 0x6C, 0x73, 0x65] rest
    stop .unsuitable rest
  | 0x22 :: rest => do
    let (_, rest) ← StringLiteral.read rest
    stop .unsuitable rest
  | 0x5B :: rest => stop .unsuitable (0x5B :: rest)
  | 0x7B :: rest => stop .unsuitable (0x7B :: rest)
  | b :: rest =>
    if b == 0x2D || isDigit b then do
      let (_, rest) ← Number.read (b :: rest)
      stop .unsuitable rest
    else stopAt .expectedValue (b :: rest)
  | [] => stopAt .expectedValue []

/-! ## Values -/

/-- An integer that is not negative. -/
def natural : Read Nat := fun l =>
  match skipBlanks l with
  | [] => stopAt .endInValue []
  | b :: rest =>
    if b == 0x2D || isDigit b then
      match Number.read (b :: rest) with
      | .ok (.integer (.ofNat n), rest) => .ok (n, rest)
      | .ok (_, rest) => stop .unsuitable rest
      | .error s => .error s
    else refuse (b :: rest)

/-- A string, or null. -/
def stringOrNull : Read (Option String) := fun l =>
  match skipBlanks l with
  | [] => stopAt .endInValue []
  | 0x6E :: rest => do
    let ((), rest) ← word [0x75, 0x6C, 0x6C] rest
    return (none, rest)
  | 0x22 :: rest => do
    let (s, rest) ← StringLiteral.read rest
    return (some s, rest)
  | l => refuse l

/-! ## Entries -/

/-- The next item of an array; none before the closing bracket, which is not read.  A comma has to
stand before every item but the first. -/
def item {α : Type} (first : Bool) (read : Read α) : Read (Option α) := fun l =>
  let found (l : List UInt8) : Except Stop (Option α × List UInt8) := do
    let (a, rest) ← read l
    return (some a, rest)
  match skipBlanks l with
  | [] => stopAt .endInList []
  | 0x5D :: rest => .ok (none, 0x5D :: rest)
  | b :: rest =>
    if first then found (b :: rest)
    else if b = 0x2C then
      match skipBlanks rest with
      | [] => stopAt .endInValue []
      | 0x5D :: rest => stopAt .trailingComma (0x5D :: rest)
      | rest => found rest
    else stopAt .expectedListCommaOrEnd (b :: rest)

/-- The end of an array of which all expected items have been read. -/
def endOfItems : Read Unit := fun l =>
  match skipBlanks l with
  | [] => stopAt .endInList []
  | 0x5D :: rest => .ok ((), rest)
  | 0x2C :: rest =>
    match skipBlanks rest with
    | 0x5D :: rest => stopAt .trailingComma (0x5D :: rest)
    | rest => stopAt .trailingCharacters rest
  | l => stopAt .trailingCharacters l

/-- The next key of an object; none behind the closing brace.  A comma has to stand before every key
but the first. -/
def key (first : Bool) : Read (Option String) := fun l =>
  let found (l : List UInt8) : Except Stop (Option String × List UInt8) := do
    let (s, rest) ← StringLiteral.read l
    return (some s, rest)
  match skipBlanks l with
  | [] => stopAt .endInObject []
  | 0x7D :: rest => .ok (none, rest)
  | b :: rest =>
    if first then if b = 0x22 then found rest else stopAt .keyMustBeString (b :: rest)
    else if b = 0x2C then
      match skipBlanks rest with
      | [] => stopAt .endInValue []
      | 0x22 :: rest => found rest
      | 0x7D :: rest => stopAt .trailingComma (0x7D :: rest)
      | rest => stopAt .keyMustBeString rest
    else stopAt .expectedObjectCommaOrEnd (b :: rest)

/-- The colon after a key. -/
def colon : Read Unit := fun l =>
  match skipBlanks l with
  | [] => stopAt .endInObject []
  | 0x3A :: rest => .ok ((), rest)
  | l => stopAt .expectedColon l

end StreamParser.Json
