import StreamParser.Text.CodePoints.Hidden

/-!
# Quoted text

A text between double quotes, in which every character can be seen: quotes, backslashes and line
ends are escaped, and so is each character that would print as nothing or would change the character
before it.
-/

namespace StreamParser.Quoted

/-- The digits of a number in base sixteen. -/
def hex (n : Nat) : List Char := Nat.toDigits 16 n

/-- The code point of a character in braces. -/
def codePoint (c : Char) : List Char := ['\\', 'u', '\x7b'] ++ hex c.toNat ++ ['\x7d']

/-- A character as it stands between quotes. -/
def encodeChar (c : Char) : List Char :=
  match c with
  | '\x00' => ['\\', '0']
  | '\t' => ['\\', 't']
  | '\r' => ['\\', 'r']
  | '\n' => ['\\', 'n']
  | '\\' => ['\\', '\\']
  | '"' => ['\\', '"']
  | c =>
    if CodePoints.extending.contains c.toNat || CodePoints.unprintable.contains c.toNat then
      codePoint c
    else [c]

/-- A text with its quotes. -/
def encode (t : String) : String :=
  String.ofList ('"' :: t.toList.flatMap encodeChar ++ ['"'])

end StreamParser.Quoted
