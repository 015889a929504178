import StreamParser.Json.Shape

/-!
# Reading over a value

`skim` reads over a value of any shape without building it.  The brackets that are open are kept in
a list, so that values may be nested to any depth.
-/

namespace StreamParser.Json

namespace Skim

/-- Go on behind the digits; there must be one if `needed`. -/
def digits (needed : Bool) (l : List UInt8) : Except Stop (List UInt8) :=
  let rest := l.dropWhile isDigit
  if needed && rest.length == l.length then stopAt .invalidNumber l else .ok rest

/-- Read over an exponent after its letter. -/
def exponent (l : List UInt8) : Except Stop (List UInt8) :=
  let l :=
    match l with
    | 0x2B :: l => l
    | 0x2D :: l => l
    | l => l
  match l with
  | [] => stop .invalidNumber []
  | b :: rest => if isDigit b then digits false rest else stop .invalidNumber rest

/-- Read over an exponent, if there is one. -/
def exponent? : List UInt8 → Except Stop (List UInt8)
  | 0x65 :: rest => exponent rest
  | 0x45 :: rest => exponent rest
  | l => .ok l

/-- Read over a fraction and an exponent, if there are any. -/
def tail : List UInt8 → Except Stop (List UInt8)
  | 0x2E :: rest => do exponent? (← digits true rest)
  | l => exponent? l

/-- Read over a number after its sign. -/
def number : List UInt8 → Except Stop (List UInt8)
  | [] => stop .invalidNumber []
  | 0x30 :: rest =>
    if (rest.head?.map isDigit).getD false then stopAt .invalidNumber rest else tail rest
  | b :: rest => do
    if isDigit b then tail (← digits false rest) else stop .invalidNumber rest

/-- Read over a value that is neither an array nor an object. -/
def scalar : List UInt8 → Except Stop (List UInt8)
  | [] => stopAt .endInValue []
  | 0x6E :: rest => (word [0x75, 0x6C, 0x6C] rest).map (·.2)
  | 0x74 :: rest => (word [0x72, 0x75, 0x65] rest).map (·.2)
  | 0x66 :: rest => (word [0x61, 0x6C, 0x73, 0x65] rest).map (·.2)
  | 0x22 :: rest => (StringLiteral.pass rest).map (·.2)
  | 0x2D :: rest => number rest
  | b :: rest => if isDigit b then number (b :: rest) else stopAt .expectedValue (b :: rest)

/-- A bracket that is open. -/
inductive Bracket
  | list
  | object
  deriving DecidableEq, Repr

namespace Bracket

/-- The byte that closes the bracket. -/
def closing : Bracket → UInt8
  | list => 0x5D
  | object => 0x7D

/-- The fault of a text that ends within the brackets. -/
def unclosed : Bracket → FaultKind
  | list => .endInList
  | object => .endInObject

/-- The fault of something else than a comma or the closing bracket. -/
def unseparated : Bracket → FaultKind
  | list => .expectedListCommaOrEnd
  | object => .expectedObjectCommaOrEnd

/-- Go on to the value of an entry: in an object it follows a key and a colon. -/
def entry : Bracket → List UInt8 → Except Stop (List UInt8)
  | list, l => .ok l
  | object, l =>
    match skipBlanks l with
    | [] => stopAt .endInObject []
    | 0x22 :: rest => do
      let ((), rest) ← StringLiteral.pass rest
      (colon rest).map (·.2)
    | l => stopAt .keyMustBeString l

end Bracket

mutual

/-- Read over a value within open brackets, and over what follows up to the end of the outermost.
The first argument bounds the number of steps. -/
def value : Nat → List Bracket → List UInt8 → Except Stop (List UInt8)
  | 0, _, l => stopAt .endInValue l
  | n + 1, outer, l =>
    match skipBlanks l with
    | 0x5B :: rest => next n true (.list :: outer) rest
    | 0x7B :: rest => next n true (.object :: outer) rest
    | l => do next n false outer (← scalar l)

/-- Go on within open brackets, behind the bracket that was opened last if `opened`, and behind a
value otherwise. -/
def next : Nat → (opened : Bool) → List Bracket → List UInt8 → Except Stop (List UInt8)
  | 0, _, _, l => stopAt .endInValue l
  | _, _, [], l => .ok l
  | n + 1, opened, b :: outer, l =>
    match skipBlanks l with
    | [] => stopAt b.unclosed []
    | c :: rest =>
      if c = b.closing then next n false outer rest
      else if opened then do value n (b :: outer) (← b.entry (c :: rest))
      else if c = 0x2C then do value n (b :: outer) (← b.entry rest)
      else stopAt b.unseparated (c :: rest)

end

end Skim

/-- Read over a value of any shape.  Every two steps read a byte. -/
def skim : Read Unit := fun l => (Skim.value (2 * l.length + 2) [] l).map fun rest => ((), rest)

end StreamParser.Json
