import StreamParser.Proofs.Tokenizer.Record

/-!
# No bound is crossed

The arithmetic of a window is on natural numbers, where a difference below zero would silently be
zero, and its bytes are an array of a fixed size, of which only parts that exist can be taken.

* `Window.retained?`, `Window.compact?` and the like are the operations of a window with every
  difference and every part checked.  `Window.Ok.checked` says that on a window that is well formed
  no check fails, and that the results are those without checks.
* `Tokenizer.window_of_run`: all windows that occur in a run of a tokenizer are well formed, and if
  the source is honest, they hold the bytes of the stream that they should.
-/

namespace StreamParser

/-- A difference, if it is not below zero. -/
def difference? (a b : Nat) : Option Nat := if b ≤ a then some (a - b) else none

theorem difference?_of_le {a b : Nat} (h : b ≤ a) : difference? a b = some (a - b) := if_pos h

namespace Window

/-! ### Operations with checks -/

/-- The array of the window: the bytes up to the limit, and what the free part still holds. -/
def data (w : Window) : List UInt8 :=
  (w.filled ++ w.leftover ++ List.replicate w.capacity 0).take w.capacity

/-- The part of the array from `i` up to `j`, if the array has it. -/
def part? (w : Window) (i j : Nat) : Option (List UInt8) :=
  if i ≤ j ∧ j ≤ w.data.length then some ((w.data.take j).drop i) else none

/-- The place in the window of the first byte that has to be kept. -/
def retained? (w : Window) : Option Nat :=
  w.marks.foldlM (fun n m => (difference? m.offset w.discarded).map (min n)) w.cursor

/-- The number of consumed bytes that marks keep. -/
def pinned? (w : Window) : Option Nat := w.retained?.bind fun n => difference? w.cursor n

/-- All the bytes that the window can hold have to be kept. -/
def isFull? (w : Window) : Option Bool :=
  w.retained?.bind fun n => (difference? w.limit n).map (· == w.capacity)

/-- Drop the bytes that need not be kept: move the part that has to be kept to the front. -/
def compact? (w : Window) : Option Window :=
  w.retained?.bind fun n =>
    (w.part? n w.limit).bind fun kept =>
      (difference? w.cursor n).bind fun cursor =>
        (difference? w.limit n).map fun limit =>
          { w with
            filled := kept
            leftover := (w.filled ++ w.leftover).drop limit
            cursor := cursor
            discarded := w.discarded + n }

/-- No check fails, and the results are those without checks. -/
structure Checked (w : Window) : Prop where
  retained : w.retained? = some w.retained
  pinned : w.pinned? = some w.pinned
  isFull : w.isFull? = some w.isFull
  compact : w.compact? = some w.compact
  /-- The bytes that a pattern is matched against. -/
  filled : w.part? 0 w.limit = some w.filled
  unconsumed : w.part? w.cursor w.limit = some w.unconsumed
  /-- The free part, which a source writes to. -/
  free : ∃ l, w.part? w.limit w.capacity = some l ∧ l.length = w.room

/-! ### The checks of a window that is well formed -/

variable {w : Window}

theorem length_data (w : Window) : w.data.length = w.capacity := by
  unfold data
  rw [List.length_take, List.length_append, List.length_replicate]
  omega

theorem Ok.take_data (h : w.Ok) {n : Nat} (hn : n ≤ w.limit) : w.data.take n = w.filled.take n := by
  have hle : n ≤ w.capacity := Nat.le_trans hn h.limit_le
  unfold data
  rw [List.take_take, Nat.min_eq_left hle, List.append_assoc, List.take_append_of_le_length hn]

/-- Parts below the limit are parts of the bytes that are there. -/
theorem Ok.part? (h : w.Ok) {i j : Nat} (hi : i ≤ j) (hj : j ≤ w.limit) :
    w.part? i j = some ((w.filled.take j).drop i) := by
  have hle : j ≤ w.data.length := by
    rw [length_data]
    exact Nat.le_trans hj h.limit_le
  unfold Window.part?
  rw [if_pos ⟨hi, hle⟩, h.take_data hj]

theorem Ok.retained? (h : w.Ok) : w.retained? = some w.retained := by
  have hfold : ∀ (marks : List Mark) (n : Nat), (∀ m ∈ marks, w.discarded ≤ m.offset) →
      marks.foldlM (fun n m => (difference? m.offset w.discarded).map (min n)) n =
        some (marks.foldl (fun n m => min n (m.offset - w.discarded)) n) := by
    intro marks
    induction marks with
    | nil => exact fun n _ => rfl
    | cons m marks ih =>
      intro n hm
      rw [List.foldlM_cons, difference?_of_le (hm m List.mem_cons_self), List.foldl_cons]
      exact ih _ fun k hk => hm k (List.mem_cons_of_mem m hk)
  exact hfold w.marks w.cursor fun m hm => (h.marks_within m hm).1

/-- On a window that is well formed no check fails. -/
theorem Ok.checked (h : w.Ok) : w.Checked := by
  have hretained := h.retained?
  have hcursor := difference?_of_le (retained_le_cursor w)
  have hlimit := difference?_of_le h.retained_le_limit
  have hall : w.filled.take w.limit = w.filled := List.take_length
  refine ⟨hretained, ?_, ?_, ?_, ?_, ?_, ?_⟩
  · unfold pinned?
    rw [hretained, Option.bind_some, hcursor]
    rfl
  · unfold isFull?
    rw [hretained, Option.bind_some, hlimit]
    rfl
  · have hkept := h.part? h.retained_le_limit (Nat.le_refl _)
    rw [hall] at hkept
    unfold compact?
    rw [hretained, Option.bind_some, hkept, Option.bind_some, hcursor, Option.bind_some, hlimit]
    rfl
  · rw [h.part? (Nat.zero_le _) (Nat.le_refl _), hall]
    rfl
  · rw [h.part? h.cursor_le (Nat.le_refl _), hall]
    rfl
  · have hin : w.limit ≤ w.capacity ∧ w.capacity ≤ w.data.length :=
      ⟨h.limit_le, Nat.le_of_eq (length_data w).symm⟩
    refine ⟨_, if_pos hin, ?_⟩
    rw [List.length_drop, List.length_take, length_data, Nat.min_self]
    rfl

end Window

namespace Tokenizer

variable {σ : Type} [Source σ] {t u : Tokenizer σ}

omit [Source σ] in
/-- The token that was found is a part of the window that begins at the cursor. -/
theorem part?_of_found (h : u.window.Ok) {p : Pattern} {stop : Nat}
    (hv : u.verdict p = .found stop) :
    u.window.part? u.window.cursor stop =
      some ((u.window.filled.take stop).drop u.window.cursor) := by
  obtain ⟨hcursor, hlimit⟩ := Pattern.matchAt_le h.cursor_le (matchAt_of_found hv)
  exact h.part? hcursor hlimit

/-- **The window in a run.**  Let a fresh tokenizer run, over any source and with any operations.

* Whatever occurs in the run, also in the middle of an operation, has a window that is well formed.
  So no check on its arithmetic fails, nor does one on the token that is to be consumed.
* If the source was honest, the bytes in the window are those that were delivered, from the first
  that was not discarded up to the last. -/
theorem window_of_run {s : σ} (ht : t.Fresh s) (ops : List Operation) :
    Occurs t (t.after ops) ∧
      (∀ u, Occurs t u → u.window.Ok ∧ u.window.Checked ∧ ∀ p stop, u.verdict p = .found stop →
        u.window.part? u.window.cursor stop =
          some ((u.window.filled.take stop).drop u.window.cursor)) ∧
      ((t.record.after ops).source.honest = true →
        (t.after ops).window.part? 0 (t.after ops).window.limit =
            some ((t.record.after ops).source.delivered.drop (t.after ops).window.discarded) ∧
          (t.record.after ops).source.delivered.length =
            (t.after ops).window.discarded + (t.after ops).window.limit) := by
  refine ⟨.after t ops, fun u hu => ?_, fun hhonest => ?_⟩
  · have hu := hu.ok ht.ok
    exact ⟨hu, hu.checked, fun p stop hv => part?_of_found hu hv⟩
  · have hafter := (Occurs.after t ops).ok ht.ok
    have hstores := (Occurs.after t.record ops).stores ht.ok ht.stores hhonest
    rw [window_after_record] at hstores
    rw [hafter.checked.filled]
    exact ⟨congrArg some hstores.1, hstores.2⟩

/-- A tokenizer of three letters, which it gets one by one; there is room for two. -/
def dripping : Tokenizer Script :=
  ⟨⟨[0x61, 0x61, 0x62], [.hand 1, .hand 1, .hand 1], none⟩, .empty 2, .uninitialized, false,
    .empty 1, none, []⟩

/-- Consume a letter. -/
def takeLetter (c : Char) : Operation :=
  .request (.rawNext ⟨String.singleton c, .chars (.single c)⟩)

/-- Consume the three letters. -/
def letterByLetter : List Operation := [takeLetter 'a', takeLetter 'a', takeLetter 'b']

/-- When the last letter has been read, there was no need to keep the others. -/
theorem window_of_dripping :
    dripping.Fresh dripping.source ∧ (dripping.record.after letterByLetter).source.honest = true ∧
      (dripping.after letterByLetter).window.discarded = 2 ∧
      (dripping.after letterByLetter).window.part? 0 1 = some [0x62] := by
  have hfresh : dripping.Fresh dripping.source := .inr ⟨⟨2, 1, none⟩, rfl⟩
  have hhonest : (dripping.record.after letterByLetter).source.honest = true := by decide +kernel
  have hdelivered : (dripping.record.after letterByLetter).source.delivered =
      [0x61, 0x61, 0x62] := by decide +kernel
  have hdiscarded : (dripping.after letterByLetter).window.discarded = 2 := by decide +kernel
  obtain ⟨hpart, hlength⟩ := (window_of_run hfresh letterByLetter).2.2 hhonest
  rw [hdelivered, hdiscarded] at hpart hlength
  have hlimit : (dripping.after letterByLetter).window.limit = 1 := by
    have : 3 = 2 + (dripping.after letterByLetter).window.limit := hlength
    omega
  rw [hlimit] at hpart
  exact ⟨hfresh, hhonest, hdiscarded, hpart⟩

end Tokenizer

end StreamParser
