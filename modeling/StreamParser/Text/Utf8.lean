/-!
# UTF-8

* `bytes t` is the encoding of a text; `text? l` is the text that `l` encodes, if it encodes one.
* `Lead` is the beginning of an encoded character: `read` reads a byte at its beginning or after
  a lead.  A lead knows which code points are still possible (`Lead.low`,
  `Lead.high`), which is what a matcher asks in the middle of a character.
-/

namespace StreamParser.Utf8

/-- The encoding of a text. -/
def bytes (t : String) : List UInt8 := t.toList.flatMap String.utf8EncodeChar

/-- An encoded character of which some bytes have been read and some are missing. -/
structure Lead where
  /-- The bits of the code point that have been read. -/
  value : Nat
  /-- How many bytes are missing. -/
  missing : Nat
  /-- The least code point whose encoding has this many bytes. -/
  least : Nat
  deriving DecidableEq, Repr

/-- What the bytes read so far are. -/
inductive Progress
  | char (c : Char)
  | lead (l : Lead)
  | invalid
  deriving DecidableEq, Repr

/-- Read the first byte of a character. -/
def begin (b : UInt8) : Progress :=
  if b < 0x80 then .char (Char.ofNat b.toNat)
  else if b < 0xC2 then .invalid
  else if b < 0xE0 then .lead ⟨b.toNat - 0xC0, 1, 0x80⟩
  else if b < 0xF0 then .lead ⟨b.toNat - 0xE0, 2, 0x800⟩
  else if b < 0xF5 then .lead ⟨b.toNat - 0xF0, 3, 0x10000⟩
  else .invalid

namespace Lead

/-- The least code point that is still possible. -/
def low (l : Lead) : Nat := max (l.value * Nat.pow 64 l.missing) l.least

/-- The greatest code point that is still possible. -/
def high (l : Lead) : Nat := l.value * Nat.pow 64 l.missing + (Nat.pow 64 l.missing - 1)

/-- Read one more byte. -/
def extend (l : Lead) (b : UInt8) : Progress :=
  if b < 0x80 || 0xC0 ≤ b then .invalid
  else
    let value := l.value * 64 + (b.toNat - 0x80)
    if l.missing ≤ 1 then
      if l.least ≤ value ∧ value.isValidChar then .char (Char.ofNat value) else .invalid
    else .lead ⟨value, l.missing - 1, l.least⟩

end Lead

/-- Read one more byte after `pending`, or the first byte of a character if nothing is pending. -/
def read (pending : Option Lead) (b : UInt8) : Progress :=
  match pending with
  | none => begin b
  | some l => l.extend b

/-- The characters encoded by what follows a lead, or by whole bytes if there is none. -/
def chars? : Option Lead → List UInt8 → Option (List Char)
  | none, [] => some []
  | some _, [] => none
  | pending, b :: rest =>
    match read pending b with
    | .char c => (chars? none rest).map (c :: ·)
    | .lead l => chars? (some l) rest
    | .invalid => none

/-- The text that the bytes encode, if they encode one. -/
def text? (l : List UInt8) : Option String := (chars? none l).map String.ofList

end StreamParser.Utf8
