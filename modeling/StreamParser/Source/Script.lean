import StreamParser.Source

/-!
# Scripted sources

A script hands out given bytes in a way that is laid down in advance, step by step: how many bytes a
read yields, where it fails, where it claims too much.  It serves both as a source and as a reader.

`Watched` counts the reads and the closes of a source, and may make its close fail.
-/

namespace StreamParser

/-- What one read does. -/
inductive ScriptStep
  /-- Hand out at most `n` bytes. -/
  | hand (n : Nat)
  /-- Say that there are no more bytes. -/
  | finish
  /-- Fail. -/
  | fail (error : IoError)
  /-- Fill the room, and claim `extra` bytes more. -/
  | overreport (extra : Nat)
  deriving DecidableEq, Repr

/-- Bytes and the way in which they are handed out. -/
structure Script where
  bytes : List UInt8
  steps : List ScriptStep
  /-- After the steps, the greatest number of bytes in one read. -/
  chunk : Option Nat
  deriving DecidableEq, Repr

namespace Script

/-- Hand out `n` bytes, and claim `extra` more. -/
def hand (s : Script) (n extra : Nat) : Reply × Script :=
  let given := s.bytes.take n
  (.read given (given.length + extra), { s with bytes := s.bytes.drop n })

/-- One read. -/
def read (s : Script) (room : Nat) : Reply × Script :=
  match s.steps with
  | .hand n :: rest => { s with steps := rest }.hand (min n room) 0
  | .finish :: rest => (.finished, { s with steps := rest })
  | .fail e :: rest => (.failed e, { s with steps := rest })
  | .overreport extra :: rest => { s with steps := rest }.hand room extra
  | [] =>
    if s.bytes.isEmpty then (.finished, s)
    else s.hand (match s.chunk with | some c => min (max 1 c) room | none => room) 0

theorem steps_hand (s : Script) (n extra : Nat) : (s.hand n extra).2.steps = s.steps := rfl

theorem hand_ne_empty {s : Script} {n : Nat} (hs : s.bytes ≠ []) (hn : 0 < n) :
    (s.hand n 0).1.isEmptyRead = false := by
  cases h : s.bytes with
  | nil => exact absurd h hs
  | cons b rest =>
    cases n with
    | zero => exact absurd hn (by omega)
    | succ n => simp [hand, h, Reply.isEmptyRead]

instance : Source Script where
  read := read
  close s := (none, s)
  patience s := s.steps.length
  patience_read s room h := by
    have one (b : Bool) : (if b then 1 else 0) ≤ 1 := by cases b <;> decide
    unfold read
    split
    · rename_i hs
      rw [steps_hand, hs]
      exact Nat.add_le_add_left (one _) _
    · rename_i hs
      rw [hs]
      exact Nat.add_le_add_left (one _) _
    · rename_i hs
      rw [hs]
      exact Nat.add_le_add_left (one _) _
    · rename_i hs
      rw [steps_hand, hs]
      exact Nat.add_le_add_left (one _) _
    · rename_i hs
      split
      · simp [Reply.isEmptyRead]
      · rename_i hb
        rw [steps_hand, hand_ne_empty (by simpa using hb) (by split <;> omega)]
        simp

/-- The answer of a reader, when it is told by a source. -/
def asReader : Reply → ReaderReply
  | .read bytes n => .read bytes n
  | .finished => .read [] 0
  | .failed e => .failed e

instance : Reader Script where
  read s room := (asReader (s.read room).1, (s.read room).2)
  patience s := s.steps.length
  patience_read s room h := by
    have hs : ∃ e, (s.read room).1 = .failed e := by
      revert h
      cases h : (s.read room).1 <;> simp [asReader, ReaderReply.isInterrupted]
    obtain ⟨e, he⟩ := hs
    unfold read at he ⊢
    split at he <;> rename_i hs
    · cases he
    · cases he
    · simp [hs]
    · cases he
    · split at he <;> cases he

end Script

/-- A source whose reads and closes are counted. -/
structure Watched (σ : Type) where
  source : σ
  /-- What closing the source fails with, if it fails. -/
  closeError : Option IoError
  reads : Nat
  closes : Nat
  deriving Repr

namespace Watched

variable {σ : Type}

/-- Watch a source from now on. -/
def start (source : σ) (closeError : Option IoError) : Watched σ := ⟨source, closeError, 0, 0⟩

instance [Source σ] : Source (Watched σ) where
  read w room :=
    let (reply, s) := Source.read w.source room
    (reply, { w with source := s, reads := w.reads + 1 })
  close w :=
    let (e, s) := Source.close w.source
    (w.closeError.or e, { w with source := s, closes := w.closes + 1 })
  patience w := Source.patience w.source
  patience_read w room h := Source.patience_read w.source room h

end Watched

end StreamParser
