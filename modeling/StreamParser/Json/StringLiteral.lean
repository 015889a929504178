import StreamParser.Json.Fault
import StreamParser.Text.Utf8

/-!
# Strings of JSON

* `StringLiteral.read` reads a string after its opening quote; `StringLiteral.pass` goes over one
  without asking what it stands for.
* `StringLiteral.encode` writes a string with its quotes.
-/

namespace StreamParser.Json.StringLiteral

/-- The value of a hexadecimal digit. -/
def hexDigit? (b : UInt8) : Option Nat :=
  if isDigit b then some (b.toNat - 0x30)
  else if 0x61 ≤ b && b ≤ 0x66 then some (b.toNat - 0x57)
  else if 0x41 ≤ b && b ≤ 0x46 then some (b.toNat - 0x37)
  else none

/-- Four hexadecimal digits. -/
def hex4 : Read Nat
  | a :: b :: c :: d :: rest =>
    match hexDigit? a, hexDigit? b, hexDigit? c, hexDigit? d with
    | some a, some b, some c, some d => .ok (((a * 16 + b) * 16 + c) * 16 + d, rest)
    | _, _, _, _ => stop .invalidEscape rest
  | _ => stop .endInString []

/-- A code point is the first half of a surrogate pair. -/
def isHigh (n : Nat) : Bool := 0xD800 ≤ n && n ≤ 0xDBFF

/-- A code point is the second half of a surrogate pair. -/
def isLow (n : Nat) : Bool := 0xDC00 ≤ n && n ≤ 0xDFFF

/-- A byte that has to come next in a surrogate pair. -/
def expectByte (b : UInt8) : Read Unit
  | [] => stop .endInString []
  | c :: rest => if c = b then .ok ((), rest) else stop .unfinishedSurrogate rest

/-- An escape by code point, after its letter.  A first half of a surrogate pair has to be followed
by the escape of a second half. -/
def unicodeEscape : Read (List UInt8) := fun l => do
  let (n, rest) ← hex4 l
  if isLow n then stop .loneSurrogate rest
  else if !isHigh n then return (String.utf8EncodeChar (Char.ofNat n), rest)
  else
    let ((), rest) ← expectByte 0x5C rest
    let ((), rest) ← expectByte 0x75 rest
    let (m, rest) ← hex4 rest
    if isLow m then
      let c := Char.ofNat ((n - 0xD800) * 0x400 + (m - 0xDC00) + 0x10000)
      return (String.utf8EncodeChar c, rest)
    else stop .loneSurrogate rest

/-- The byte that an escaped letter stands for. -/
def simpleEscape? : UInt8 → Option UInt8
  | 0x22 => some 0x22
  | 0x5C => some 0x5C
  | 0x2F => some 0x2F
  | 0x62 => some 0x08
  | 0x66 => some 0x0C
  | 0x6E => some 0x0A
  | 0x72 => some 0x0D
  | 0x74 => some 0x09
  | _ => none

/-- An escape after its backslash: the bytes that it stands for. -/
def escape : Read (List UInt8)
  | [] => stop .endInString []
  | 0x75 :: rest => unicodeEscape rest
  | b :: rest =>
    match simpleEscape? b with
    | some c => .ok ([c], rest)
    | none => stop .invalidEscape rest

/-- The rest of a string up to its closing quote: the bytes that it stands for.  The first argument
bounds the number of characters. -/
def body : Nat → Read (List UInt8)
  | 0, l => stop .endInString l
  | _, [] => stop .endInString []
  | _, 0x22 :: rest => .ok ([], rest)
  | n + 1, 0x5C :: rest => do
    let (first, rest) ← escape rest
    let (others, rest) ← body n rest
    return (first ++ others, rest)
  | n + 1, b :: rest =>
    if b < 0x20 then stop .controlCharacter rest
    else do
      let (others, rest) ← body n rest
      return (b :: others, rest)

/-- A string after its opening quote. -/
def read : Read String := fun l => do
  let (bytes, rest) ← body (l.length + 1) l
  return ((Utf8.text? bytes).getD "", rest)

/-- Go over an escape after its backslash. -/
def passEscape : Read Unit
  | [] => stop .endInString []
  | 0x75 :: rest => do
    let (_, rest) ← hex4 rest
    return ((), rest)
  | b :: rest => if (simpleEscape? b).isSome then .ok ((), rest) else stop .invalidEscape rest

/-- Go over the rest of a string.  The first argument bounds the number of characters. -/
def passBody : Nat → Read Unit
  | 0, l => stop .endInString l
  | _, [] => stop .endInString []
  | _, 0x22 :: rest => .ok ((), rest)
  | n + 1, 0x5C :: rest => do
    let ((), rest) ← passEscape rest
    passBody n rest
  | n + 1, b :: rest => if b < 0x20 then stop .controlCharacter (b :: rest) else passBody n rest

/-- Go over a string after its opening quote. -/
def pass : Read Unit := fun l => passBody (l.length + 1) l

/-- Read a text that is a string with its quotes and nothing else. -/
def ofText (t : String) : Except Fault String :=
  let whole := Utf8.bytes t
  let result : Except Stop String :=
    match skipBlanks whole with
    | [] => stopAt .endInValue []
    | 0x22 :: rest => do
      let (s, rest) ← read rest
      if (skipBlanks rest).isEmpty then return s
      else stopAt .trailingCharacters (skipBlanks rest)
    | l => stopAt .unsuitable l
  match result with
  | .ok s => .ok s
  | .error s => .error (s.fault whole)

/-- A digit in base sixteen. -/
def hexChar (n : Nat) : Char := Char.ofNat (if n < 10 then 0x30 + n else 0x57 + n)

/-- A character as it is written. -/
def encodeChar (c : Char) : List Char :=
  match c with
  | '"' => ['\\', '"']
  | '\\' => ['\\', '\\']
  | '\x08' => ['\\', 'b']
  | '\x0C' => ['\\', 'f']
  | '\n' => ['\\', 'n']
  | '\r' => ['\\', 'r']
  | '\t' => ['\\', 't']
  | c =>
    if c.toNat < 0x20 then
      ['\\', 'u', '0', '0', hexChar (c.toNat / 16), hexChar (c.toNat % 16)]
    else [c]

/-- A string as it is written. -/
def encode (t : String) : String :=
  String.ofList ('"' :: t.toList.flatMap encodeChar ++ ['"'])

end StreamParser.Json.StringLiteral
