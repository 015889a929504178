import StreamParser.Error
import StreamParser.Text.Utf8

/-!
# The window of a tokenizer

A window is a part of fixed capacity of a stream of bytes.  It begins `discarded` bytes after the
beginning of the stream; the bytes before `cursor` are consumed, and marks keep consumed bytes in
the window so that the cursor can be set back to them.

```text
0 ........ retained ........ cursor ........ limit ........ capacity
  consumed   kept for marks    unconsumed      free
```

* `Window.compact` drops the bytes that neither the cursor nor a mark needs;
* `Window.receive` takes up bytes of the stream, `Window.take` consumes bytes;
* `Window.mark`, `Window.reset` and `Window.release` set marks, go back to them and give them up.

Offsets of marks, and `Window.position`, count from the beginning of the stream.

Memory is not bounded: there is a window of every capacity, and offsets and numbers of marks may grow
without bound.
-/

namespace StreamParser

/-- A place in the stream that the cursor can be set back to. -/
structure Mark where
  /-- The number of the mark; no two marks have the same. -/
  id : Nat
  /-- The place in the stream. -/
  offset : Nat
  deriving DecidableEq, Repr

/-- A part of a stream. -/
structure Window where
  /-- The greatest number of bytes. -/
  capacity : Nat
  /-- The bytes up to the limit. -/
  filled : List UInt8
  /-- What the free part still holds from before; the rest of it is zero. -/
  leftover : List UInt8
  /-- The number of bytes of the window that have been consumed. -/
  cursor : Nat
  /-- The number of bytes of the stream before the window. -/
  discarded : Nat
  /-- The marks that are held. -/
  marks : List Mark
  /-- The number of the next mark. -/
  nextMark : Nat
  deriving DecidableEq, Repr

namespace Window

/-- A window at the beginning of a stream. -/
def empty (capacity : Nat) : Window := ⟨capacity, [], [], 0, 0, [], 0⟩

/-- The number of bytes in the window. -/
def limit (w : Window) : Nat := w.filled.length

/-- The place of the cursor in the stream. -/
def position (w : Window) : Nat := w.discarded + w.cursor

/-- The bytes after the cursor. -/
def unconsumed (w : Window) : List UInt8 := w.filled.drop w.cursor

/-- There are no bytes after the cursor. -/
def isDrained (w : Window) : Bool := w.cursor == w.limit

/-- The place in the window of the first byte that has to be kept. -/
def retained (w : Window) : Nat :=
  w.marks.foldl (fun n m => min n (m.offset - w.discarded)) w.cursor

/-- The number of consumed bytes that marks keep. -/
def pinned (w : Window) : Nat := w.cursor - w.retained

/-- All the bytes that the window can hold have to be kept. -/
def isFull (w : Window) : Bool := w.limit - w.retained == w.capacity

/-- Drop the bytes that need not be kept. -/
def compact (w : Window) : Window :=
  let n := w.retained
  { w with
    filled := w.filled.drop n
    leftover := (w.filled ++ w.leftover).drop (w.limit - n)
    cursor := w.cursor - n
    discarded := w.discarded + n }

/-- The number of bytes that can be taken up. -/
def room (w : Window) : Nat := w.capacity - w.limit

/-- Take up `bytes`, of which `count` are claimed to be there.  What is claimed beyond the bytes is
what the free part held before. -/
def receive (w : Window) (bytes : List UInt8) (count : Nat) : Window :=
  let count := min count w.room
  let free := bytes.take w.room ++ w.leftover.drop (bytes.take w.room).length
  { w with
    filled := w.filled ++ free.take count ++ List.replicate (count - free.length) 0
    leftover := free.drop count }

/-- Consume the bytes up to `stop`, and return their text. -/
def take (w : Window) (stop : Nat) : Except TokenError (String × Window) :=
  match Utf8.text? ((w.filled.take stop).drop w.cursor) with
  | some t => .ok (t, { w with cursor := stop })
  | none => .error (.invalidUtf8 w.position)

/-- Mark the place of the cursor. -/
def mark (w : Window) : Mark × Window :=
  let m : Mark := ⟨w.nextMark, w.position⟩
  (m, { w with marks := w.marks ++ [m], nextMark := w.nextMark + 1 })

/-- A mark is held. -/
def holds (w : Window) (m : Mark) : Bool := w.marks.any fun n => n.id == m.id

/-- Set the cursor back to a place in the stream, if the window has it. -/
def reset (w : Window) (offset : Nat) : Except TokenError Window :=
  if offset < w.discarded ∨ w.discarded + w.limit < offset then .error (.staleMark offset)
  else .ok { w with cursor := offset - w.discarded }

/-- Give up a mark. -/
def release (w : Window) (m : Mark) : Window :=
  { w with marks := w.marks.filter fun n => n.id != m.id }

/-- Give up all marks. -/
def forget (w : Window) : Window := { w with marks := [] }

end Window

end StreamParser
