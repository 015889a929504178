import StreamParser.Json.Fault
import StreamParser.Text.Utf8

/-!
# Numbers of JSON

A number without fraction and exponent is an integer if it fits into 64 bits, with or without a
sign; all other numbers are floating.  Zero with a sign would fit, and is floating all the same.

The digits of a floating number are gathered in 64 bits.  The first digit of the integer part that
does not fit, and those after it, only raise the exponent; the first digit of the fraction that does
not fit, and those after it, are left out.  Then there is one multiplication or division by a power
of ten.  So the last bit may differ from the nearest floating number.
-/

namespace StreamParser.Json

/-- A number. -/
inductive Number
  | integer (n : Int)
  | float (f : Float)
  deriving Repr

namespace Number

/-- Equality of numbers; an integer differs from every floating number. -/
def equal : Number → Number → Bool
  | integer m, integer n => m == n
  | float f, float g => f == g
  | _, _ => false

/-- The number of significands. -/
def limit : Nat := 0x10000000000000000

/-- Gather digits after the significand `n` as long as it fits into 64 bits: the significand, how
many digits were gathered, and how many were not. -/
def gather (n : Nat) : List UInt8 → Nat × Nat × Nat
  | [] => (n, 0, 0)
  | b :: rest =>
    let m := 10 * n + (b.toNat - 0x30)
    if m < limit then
      let (value, taken, left) := gather m rest
      (value, taken + 1, left)
    else (n, 0, rest.length + 1)

/-- A power of ten. -/
def powerOfTen (n : Nat) : Float := Float.ofScientific 1 false n

/-- The greatest power of ten that is finite. -/
def greatestPower : Nat := 308

/-- Divide by a power of ten, in several steps if it is too great for one.  The first argument
bounds the number of steps. -/
def shrink : Nat → Float → Nat → Float
  | 0, f, _ => f
  | steps + 1, f, n =>
    if n ≤ greatestPower then f / powerOfTen n
    else if f == 0 then f
    else shrink steps (f / powerOfTen greatestPower) (n - greatestPower)

/-- The floating number with a significand and an exponent, if it is finite. -/
def scale? (significand : Nat) (exponent : Int) : Option Float :=
  let f := (UInt64.ofNat significand).toFloat
  match exponent with
  | .ofNat n =>
    if n ≤ greatestPower then
      let g := f * powerOfTen n
      if g.isInf then none else some g
    else if significand = 0 then some f
    else none
  | .negSucc n => some (shrink (n + 1) f (n + 1))

/-- A floating number with a sign. -/
def signed (positive : Bool) (f : Float) : Number := float (if positive then f else -f)

/-- The floating number with a significand and an exponent, before the bytes `rest`. -/
def floating (positive : Bool) (significand : Nat) (exponent : Int) (rest : List UInt8) :
    Except Stop (Number × List UInt8) :=
  match scale? significand exponent with
  | some f => .ok (signed positive f, rest)
  | none => stop .numberOutOfRange rest

/-- Gather the digits of an exponent as long as it fits into 31 bits; otherwise return what is left
after the first digit that does not fit. -/
def gatherExponent (n : Nat) : List UInt8 → Except (List UInt8) (Nat × List UInt8)
  | [] => .ok (n, [])
  | b :: rest =>
    if isDigit b then
      let m := 10 * n + (b.toNat - 0x30)
      if m < 0x80000000 then gatherExponent m rest else .error rest
    else .ok (n, b :: rest)

/-- An exponent after its letter. -/
def exponent (positive : Bool) (significand : Nat) (start : Int) (l : List UInt8) :
    Except Stop (Number × List UInt8) :=
  let (up, l) :=
    match l with
    | 0x2B :: l => (true, l)
    | 0x2D :: l => (false, l)
    | l => (true, l)
  match l with
  | [] => stop .endInValue []
  | b :: rest =>
    if !isDigit b then stop .invalidNumber rest
    else
      match gatherExponent 0 (b :: rest) with
      | .ok (e, rest) =>
        floating positive significand (if up then start + e else start - e) rest
      | .error rest =>
        if significand ≠ 0 ∧ up then stop .numberOutOfRange rest
        else .ok (signed positive 0, rest.dropWhile isDigit)

/-- A fraction after its point; `raised` is what the integer part adds to the exponent. -/
def fraction (positive : Bool) (significand raised : Nat) (l : List UInt8) :
    Except Stop (Number × List UInt8) :=
  let digits := l.takeWhile isDigit
  let rest := l.dropWhile isDigit
  if digits.isEmpty then
    if rest.isEmpty then stopAt .endInValue rest else stopAt .invalidNumber rest
  else
    let (significand, taken, _) := gather significand digits
    let start : Int := raised - taken
    match rest with
    | 0x65 :: rest => exponent positive significand start rest
    | 0x45 :: rest => exponent positive significand start rest
    | rest => floating positive significand start rest

/-- What follows an integer part with a significand, which `raised` digits did not fit into. -/
def tail (positive : Bool) (significand raised : Nat) (l : List UInt8) :
    Except Stop (Number × List UInt8) :=
  match l with
  | 0x2E :: rest => fraction positive significand raised rest
  | 0x65 :: rest => exponent positive significand raised rest
  | 0x45 :: rest => exponent positive significand raised rest
  | rest =>
    if raised ≠ 0 then floating positive significand raised rest
    else if positive then .ok (integer significand, rest)
    else if significand = 0 ∨ 0x8000000000000000 < significand then
      .ok (signed false (UInt64.ofNat significand).toFloat, rest)
    else .ok (integer (-(significand : Int)), rest)

/-- A number after its sign. -/
def unsigned (positive : Bool) (l : List UInt8) : Except Stop (Number × List UInt8) :=
  match l with
  | [] => stop .endInValue []
  | 0x30 :: rest =>
    if (rest.head?.map isDigit).getD false then stopAt .invalidNumber rest
    else tail positive 0 0 rest
  | b :: rest =>
    if !isDigit b then stop .invalidNumber rest
    else
      let (significand, _, raised) := gather 0 ((b :: rest).takeWhile isDigit)
      tail positive significand raised ((b :: rest).dropWhile isDigit)

/-- A number at the beginning of the bytes that are left. -/
def read : Read Number
  | 0x2D :: rest => unsigned false rest
  | l => unsigned true l

/-- Read a text that is a number and nothing else. -/
def ofText (t : String) : Except Fault Number :=
  let whole := Utf8.bytes t
  let start : Except Stop (Number × List UInt8) :=
    match whole with
    | [] => stopAt .endInValue []
    | b :: _ => if b == 0x2D || isDigit b then read whole else stopAt .invalidNumber whole
  let left := match start with
    | .ok (_, rest) => rest
    | .error s => s.rest
  if left.isEmpty then
    match start with
    | .ok (n, _) => .ok n
    | .error s => .error (s.fault whole)
  else .error (Stop.fault whole ⟨.invalidNumber, left, true⟩)

end Number

end StreamParser.Json
