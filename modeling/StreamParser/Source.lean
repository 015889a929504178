import StreamParser.Error

/-!
# Where bytes come from

* `Source` is what a tokenizer reads from.  It may answer a read without any bytes, for instance
  while it waits, but only finitely often: `Source.patience` bounds the number of such answers.
* `Reader` is a plainer thing: it hands out bytes, and an empty answer is its end.  It may be
  interrupted, again only finitely often.
* `ReaderSource` makes a source of a reader: interrupted reads are tried again.
-/

namespace StreamParser

/-- The answer of a source to one read. -/
inductive Reply
  /-- Bytes were handed out; `count` is the number of bytes that the source claims. -/
  | read (bytes : List UInt8) (count : Nat)
  /-- There are no more bytes. -/
  | finished
  /-- The read failed. -/
  | failed (error : IoError)
  deriving DecidableEq, Repr

/-- The source claims to have handed out nothing, and does not end. -/
def Reply.isEmptyRead : Reply → Bool
  | read _ 0 => true
  | _ => false

/-- A source of bytes. -/
class Source (σ : Type) where
  /-- Read at most `room` bytes. -/
  read : σ → (room : Nat) → Reply × σ
  /-- Let go of what the source holds. -/
  close : σ → Option IoError × σ
  /-- A bound on the number of reads without bytes. -/
  patience : σ → Nat
  /-- The bound never grows, and a read without bytes uses it up. -/
  patience_read (s : σ) (room : Nat) : 0 < room →
    patience (read s room).2 + (if (read s room).1.isEmptyRead then 1 else 0) ≤ patience s

/-- The answer of a reader to one read. -/
inductive ReaderReply
  /-- Bytes were handed out; `count` is the number that the reader claims, and 0 is its end. -/
  | read (bytes : List UInt8) (count : Nat)
  /-- The read failed. -/
  | failed (error : IoError)
  deriving DecidableEq, Repr

/-- The read was interrupted and may be tried again. -/
def ReaderReply.isInterrupted : ReaderReply → Bool
  | failed e => e.kind == .interrupted
  | read _ _ => false

/-- Something that hands out bytes up to its end. -/
class Reader (ρ : Type) where
  /-- Read at most `room` bytes. -/
  read : ρ → (room : Nat) → ReaderReply × ρ
  /-- A bound on the number of interruptions. -/
  patience : ρ → Nat
  /-- An interruption uses up the bound. -/
  patience_read (r : ρ) (room : Nat) :
    (read r room).1.isInterrupted → patience (read r room).2 < patience r

/-- A source that reads from a reader until it is closed. -/
structure ReaderSource (ρ : Type) where
  /-- The reader; none once the source is closed. -/
  reader : Option ρ
  deriving Repr

namespace ReaderSource

variable {ρ : Type} [Reader ρ]

/-- What a read answers once the source is closed. -/
def closedError : IoError := ⟨.other, "source is closed"⟩

/-- Read from a reader, again after each interruption. -/
def retry (room : Nat) : Nat → ρ → Reply × ρ
  | 0, r => (.finished, r)
  | n + 1, r =>
    match Reader.read r room with
    | (.read _ 0, r) => (.finished, r)
    | (.read bytes (k + 1), r) => (.read bytes (k + 1), r)
    | (.failed e, r) => if e.kind = .interrupted then retry room n r else (.failed e, r)

/-- Read at most `room` bytes. -/
def read (s : ReaderSource ρ) (room : Nat) : Reply × ReaderSource ρ :=
  match s.reader with
  | none => (.failed closedError, s)
  | some r =>
    if room = 0 then (.read [] 0, s)
    else
      let (reply, r) := retry room (Reader.patience r + 1) r
      (reply, ⟨some r⟩)

theorem retry_ne_empty (room n : Nat) (r : ρ) : (retry room n r).1.isEmptyRead = false := by
  induction n generalizing r with
  | zero => rfl
  | succ n ih =>
    unfold retry
    split
    · rfl
    · rfl
    · split
      · exact ih _
      · rfl

instance : Source (ReaderSource ρ) where
  read := read
  close s := (none, { s with reader := none })
  patience _ := 0
  patience_read s room h := by
    have : (s.read room).1.isEmptyRead = false := by
      unfold read
      split
      · rfl
      · rw [if_neg (by omega)]
        exact retry_ne_empty _ _ _
    simp [this]

end ReaderSource

end StreamParser
