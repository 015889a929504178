import Mathlib.Data.List.Nodup
import StreamParser.Tokenizer.Window

/-!
# The window of a tokenizer is well formed

* `Window.Ok` is the invariant of windows: the cursor is within the bytes, the bytes are within the
  capacity, every mark points to a place that is still in the window, and no two marks have the same
  number.  Every operation keeps it.
* `oldest` is the first place of the stream that has to be kept: `Window.Ok.discarded_add_retained`
  says that this is where `Window.compact` makes the window begin.
-/

namespace StreamParser

/-- The first place of the stream that has to be kept: a mark may be before the position. -/
def oldest (position : Nat) (marks : List Mark) : Nat :=
  marks.foldl (fun n m => min n m.offset) position

theorem oldest_le_position (position : Nat) (marks : List Mark) :
    oldest position marks ≤ position := by
  induction marks generalizing position with
  | nil => exact Nat.le_refl _
  | cons m marks ih => exact Nat.le_trans (ih _) (Nat.min_le_left _ _)

theorem oldest_le_offset {position : Nat} {marks : List Mark} {m : Mark} (hm : m ∈ marks) :
    oldest position marks ≤ m.offset := by
  induction marks generalizing position with
  | nil => exact absurd hm List.not_mem_nil
  | cons n marks ih =>
    rcases List.mem_cons.1 hm with rfl | hm
    · exact Nat.le_trans (oldest_le_position (min position m.offset) marks) (Nat.min_le_right _ _)
    · exact ih hm

/-- What has to be kept begins at the position or at a mark. -/
theorem oldest_cases (position : Nat) (marks : List Mark) :
    oldest position marks = position ∨ ∃ m ∈ marks, m.offset = oldest position marks := by
  induction marks generalizing position with
  | nil => exact .inl rfl
  | cons m marks ih =>
    rcases ih (min position m.offset) with hmin | ⟨k, hk, hoffset⟩
    · rcases Nat.le_total position m.offset with hle | hle
      · exact .inl (hmin.trans (Nat.min_eq_left hle))
      · exact .inr ⟨m, List.mem_cons_self, (hmin.trans (Nat.min_eq_right hle)).symm⟩
    · exact .inr ⟨k, List.mem_cons_of_mem m hk, hoffset⟩

theorem oldest_mono {n n' : Nat} (h : n ≤ n') (marks : List Mark) :
    oldest n marks ≤ oldest n' marks := by
  induction marks generalizing n n' with
  | nil => exact h
  | cons m marks ih =>
    have hmin : min n m.offset ≤ min n' m.offset := by omega
    exact ih hmin

/-- One more mark. -/
theorem oldest_append_singleton (n : Nat) (marks : List Mark) (m : Mark) :
    oldest n (marks ++ [m]) = min (oldest n marks) m.offset := by
  unfold oldest
  rw [List.foldl_append, List.foldl_cons, List.foldl_nil]

/-- A mark at the position does not change what has to be kept. -/
theorem oldest_concat {n : Nat} {marks : List Mark} {m : Mark} (h : m.offset = n) :
    oldest n (marks ++ [m]) = oldest n marks := by
  rw [oldest_append_singleton, h]
  exact Nat.min_eq_left (oldest_le_position n marks)

/-- What has to be kept is told by the places of the marks. -/
theorem oldest_congr {marks marks' : List Mark}
    (h : marks'.map Mark.offset = marks.map Mark.offset) (n : Nat) :
    oldest n marks' = oldest n marks := by
  have hfold : ∀ marks : List Mark, oldest n marks = (marks.map Mark.offset).foldl min n := by
    intro marks
    unfold oldest
    rw [List.foldl_map]
  rw [hfold, hfold, h]

namespace Window

/-- The window is well formed. -/
structure Ok (w : Window) : Prop where
  cursor_le : w.cursor ≤ w.limit
  limit_le : w.limit ≤ w.capacity
  /-- A mark points to a place in the window. -/
  marks_within : ∀ m ∈ w.marks, w.discarded ≤ m.offset ∧ m.offset ≤ w.discarded + w.limit
  /-- The number of a mark has not yet to be given out. -/
  marks_lt : ∀ m ∈ w.marks, m.id < w.nextMark
  /-- No two marks have the same number. -/
  marks_distinct : (w.marks.map Mark.id).Nodup

/-! ### What has to be kept -/

theorem retained_le_cursor (w : Window) : w.retained ≤ w.cursor := by
  have hfold : ∀ (marks : List Mark) (n : Nat),
      marks.foldl (fun n m => min n (m.offset - w.discarded)) n ≤ n := by
    intro marks
    induction marks with
    | nil => exact fun n => Nat.le_refl n
    | cons m marks ih => exact fun n => Nat.le_trans (ih _) (Nat.min_le_left _ _)
  exact hfold w.marks w.cursor

/-- The bytes that have to be kept begin with the oldest of the places that have to be kept. -/
theorem Ok.discarded_add_retained {w : Window} (h : w.Ok) :
    w.discarded + w.retained = oldest w.position w.marks := by
  have hfold : ∀ (marks : List Mark) (n : Nat), (∀ m ∈ marks, w.discarded ≤ m.offset) →
      w.discarded + marks.foldl (fun n m => min n (m.offset - w.discarded)) n =
        oldest (w.discarded + n) marks := by
    intro marks
    -- the distances are not cut off at zero, since no mark is before the window
    induction marks with
    | nil => exact fun n _ => rfl
    | cons m marks ih =>
      intro n hm
      have hmin : w.discarded + min n (m.offset - w.discarded) =
          min (w.discarded + n) m.offset := by
        have := hm m List.mem_cons_self
        omega
      rw [List.foldl_cons, ih _ fun k hk => hm k (List.mem_cons_of_mem m hk), hmin]
      rfl
  exact hfold w.marks w.cursor fun m hm => (h.marks_within m hm).1

theorem Ok.retained_le_limit {w : Window} (h : w.Ok) : w.retained ≤ w.limit :=
  Nat.le_trans (retained_le_cursor w) h.cursor_le

/-- The window is full if the bytes from the oldest place on fill it. -/
theorem Ok.isFull_iff {w : Window} (h : w.Ok) :
    w.isFull = true ↔ w.retained = 0 ∧ w.limit = w.capacity := by
  unfold isFull
  rw [beq_iff_eq]
  have := h.limit_le
  have := h.retained_le_limit
  omega

theorem Ok.pinned_eq {w : Window} (h : w.Ok) :
    w.pinned = w.position - oldest w.position w.marks := by
  have := h.discarded_add_retained
  have := retained_le_cursor w
  unfold pinned position at *
  omega

/-- Without marks nothing is pinned. -/
theorem pinned_of_marks_eq_nil {w : Window} (h : w.marks = []) : w.pinned = 0 := by
  unfold pinned retained
  rw [h]
  exact Nat.sub_self _

/-- If nothing is pinned, no mark is before the position. -/
theorem Ok.position_le_of_pinned {w : Window} (h : w.Ok) (hp : w.pinned = 0) :
    ∀ m ∈ w.marks, w.position ≤ m.offset := by
  intro m hm
  have hpinned := h.pinned_eq
  have hoffset : oldest w.position w.marks ≤ m.offset := oldest_le_offset hm
  omega

/-- What is pinned begins at a mark. -/
theorem Ok.exists_mark_of_pinned {w : Window} (h : w.Ok) (hp : 0 < w.pinned) :
    ∃ m ∈ w.marks, m.offset + w.pinned = w.position := by
  have hpinned := h.pinned_eq
  rcases oldest_cases w.position w.marks with hposition | ⟨m, hm, hoffset⟩
  · omega
  · exact ⟨m, hm, by omega⟩

/-- The bytes of a full window are pinned or not consumed. -/
theorem Ok.pinned_add_unconsumed {w : Window} (h : w.Ok) (hf : w.isFull = true) :
    w.pinned + w.unconsumed.length = w.capacity := by
  obtain ⟨hretained, hlimit⟩ := h.isFull_iff.1 hf
  have hcursor := h.cursor_le
  unfold pinned unconsumed
  unfold limit at hlimit hcursor
  rw [hretained, List.length_drop]
  omega

theorem Ok.isDrained_iff {w : Window} (h : w.Ok) : w.isDrained = true ↔ w.unconsumed = [] := by
  have hcursor := h.cursor_le
  unfold isDrained unconsumed
  rw [beq_iff_eq, List.drop_eq_nil_iff]
  unfold limit at hcursor ⊢
  omega

/-! ### Making room -/

theorem limit_compact (w : Window) : w.compact.limit = w.limit - w.retained :=
  List.length_drop

/-- Compacting does not move the cursor in the stream. -/
theorem position_compact (w : Window) : w.compact.position = w.position := by
  have := retained_le_cursor w
  show w.discarded + w.retained + (w.cursor - w.retained) = w.discarded + w.cursor
  omega

theorem Ok.compact {w : Window} (h : w.Ok) : w.compact.Ok where
  cursor_le := by
    rw [limit_compact]
    exact Nat.sub_le_sub_right h.cursor_le _
  limit_le := by
    rw [limit_compact]
    exact Nat.le_trans (Nat.sub_le _ _) h.limit_le
  marks_within m hm := by
    have hold : w.discarded + w.retained ≤ m.offset := by
      rw [h.discarded_add_retained]
      exact oldest_le_offset hm
    have hin := h.marks_within m hm
    have := h.retained_le_limit
    rw [limit_compact]
    show w.discarded + w.retained ≤ m.offset ∧
      m.offset ≤ w.discarded + w.retained + (w.limit - w.retained)
    omega
  marks_lt := h.marks_lt
  marks_distinct := h.marks_distinct

/-- Compacting leaves nothing that need not be kept. -/
theorem Ok.retained_compact {w : Window} (h : w.Ok) : w.compact.retained = 0 := by
  have h' := h.compact.discarded_add_retained
  have hm : w.compact.marks = w.marks := rfl
  rw [position_compact, hm, ← h.discarded_add_retained] at h'
  have hd : w.compact.discarded = w.discarded + w.retained := rfl
  omega

/-- If all has to be kept, compacting does nothing. -/
theorem compact_of_retained {w : Window} (h : w.retained = 0) : w.compact = w := by
  unfold compact limit
  rw [h]
  simp only [List.drop_zero, Nat.sub_zero, List.drop_left, Nat.add_zero]

/-- Compacting loses nothing that is not consumed. -/
theorem unconsumed_compact (w : Window) : w.compact.unconsumed = w.unconsumed := by
  show (w.filled.drop w.retained).drop (w.cursor - w.retained) = w.filled.drop w.cursor
  rw [List.drop_drop, Nat.add_sub_of_le (retained_le_cursor w)]

/-- Compacting makes room only for bytes that do not have to be kept. -/
theorem Ok.isFull_compact {w : Window} (h : w.Ok) : w.compact.isFull = w.isFull := by
  unfold isFull
  rw [h.retained_compact, limit_compact, Nat.sub_zero]
  rfl

/-- If not all bytes that the window can hold have to be kept, compacting makes room. -/
theorem Ok.room_compact_pos {w : Window} (h : w.Ok) (hf : w.isFull = false) :
    0 < w.compact.room := by
  have hne : ¬ (w.retained = 0 ∧ w.limit = w.capacity) := by
    rw [← h.isFull_iff, hf]
    exact Bool.false_ne_true
  have := h.limit_le
  have hr : w.compact.room = w.capacity - (w.limit - w.retained) := by
    rw [← limit_compact]
    rfl
  have := h.retained_le_limit
  omega

/-- A window without bytes has room. -/
theorem room_pos_of_limit {w : Window} (hc : 0 < w.capacity) (hl : w.limit = 0) : 0 < w.room := by
  unfold room
  omega

/-! ### Taking up bytes -/

/-- At most as many bytes are taken up as there is room for. -/
theorem limit_receive (w : Window) (bytes : List UInt8) (count : Nat) :
    (w.receive bytes count).limit = w.limit + min count w.room := by
  unfold receive limit
  simp only [List.length_append, List.length_take, List.length_replicate, List.length_drop]
  omega

theorem Ok.receive {w : Window} (h : w.Ok) (bytes : List UInt8) (count : Nat) :
    (w.receive bytes count).Ok where
  cursor_le := by
    rw [limit_receive]
    exact Nat.le_trans h.cursor_le (Nat.le_add_right _ _)
  limit_le := by
    rw [limit_receive]
    have := h.limit_le
    show w.limit + min count (w.capacity - w.limit) ≤ w.capacity
    omega
  marks_within m hm := by
    rw [limit_receive]
    have := h.marks_within m hm
    show w.discarded ≤ m.offset ∧ m.offset ≤ w.discarded + (w.limit + min count w.room)
    omega
  marks_lt := h.marks_lt
  marks_distinct := h.marks_distinct

/-- Of what an honest source hands out, all is taken up. -/
theorem filled_receive {w : Window} {bytes : List UInt8} (h : bytes.length ≤ w.room) :
    (w.receive bytes bytes.length).filled = w.filled ++ bytes := by
  have hcount : min bytes.length w.room = bytes.length := Nat.min_eq_left h
  unfold receive
  simp only [hcount, List.take_of_length_le h, List.take_left, List.length_append]
  rw [Nat.sub_eq_zero_of_le (Nat.le_add_right _ _), List.replicate_zero, List.append_nil]

/-! ### Consuming -/

theorem Ok.withCursor {w : Window} (h : w.Ok) {n : Nat} (hn : n ≤ w.limit) :
    Ok { w with cursor := n } where
  cursor_le := hn
  limit_le := h.limit_le
  marks_within := h.marks_within
  marks_lt := h.marks_lt
  marks_distinct := h.marks_distinct

/-- To consume a token moves only the cursor. -/
theorem eq_of_take {w w' : Window} {stop : Nat} {token : String}
    (ht : w.take stop = .ok (token, w')) : w' = { w with cursor := stop } := by
  unfold Window.take at ht
  split at ht
  · cases ht
    rfl
  · cases ht

/-- A token that is consumed is the text of its bytes. -/
theorem text_of_take {w w' : Window} {stop : Nat} {token : String}
    (h : w.take stop = .ok (token, w')) :
    Utf8.text? ((w.filled.take stop).drop w.cursor) = some token := by
  unfold Window.take at h
  split at h
  · cases h
    assumption
  · cases h

theorem Ok.take {w w' : Window} (h : w.Ok) {stop : Nat} (hs : stop ≤ w.limit) {token : String}
    (ht : w.take stop = .ok (token, w')) : w'.Ok := by
  rw [eq_of_take ht]
  exact h.withCursor hs

/-! ### Marks -/

theorem Ok.mark {w : Window} (h : w.Ok) : w.mark.2.Ok where
  cursor_le := h.cursor_le
  limit_le := h.limit_le
  marks_within m hm := by
    rcases List.mem_append.1 hm with hm | hm
    · exact h.marks_within m hm
    · rw [List.mem_singleton.1 hm]
      exact ⟨Nat.le_add_right _ _, Nat.add_le_add_left h.cursor_le _⟩
  marks_lt m hm := by
    rcases List.mem_append.1 hm with hm | hm
    · exact Nat.lt_succ_of_lt (h.marks_lt m hm)
    · rw [List.mem_singleton.1 hm]
      exact Nat.lt_succ_self _
  marks_distinct := by
    show ((w.marks ++ [_]).map Mark.id).Nodup
    rw [List.map_append, List.nodup_append']
    -- the new number is greater than all that were given out
    refine ⟨h.marks_distinct, List.nodup_singleton _, fun id hid hid' => ?_⟩
    obtain ⟨m, hm, rfl⟩ := List.mem_map.1 hid
    have := h.marks_lt m hm
    have hnew : m.id = w.nextMark := List.mem_singleton.1 hid'
    omega

theorem Ok.release {w : Window} (h : w.Ok) (m : Mark) : (w.release m).Ok where
  cursor_le := h.cursor_le
  limit_le := h.limit_le
  marks_within k hk := h.marks_within k (List.mem_of_mem_filter hk)
  marks_lt k hk := h.marks_lt k (List.mem_of_mem_filter hk)
  marks_distinct := h.marks_distinct.sublist (List.filter_sublist.map _)

theorem Ok.forget {w : Window} (h : w.Ok) : w.forget.Ok where
  cursor_le := h.cursor_le
  limit_le := h.limit_le
  marks_within := by simp [Window.forget]
  marks_lt := by simp [Window.forget]
  marks_distinct := by simp [Window.forget]

theorem Ok.reset {w w' : Window} (h : w.Ok) {offset : Nat} (hr : w.reset offset = .ok w') :
    w'.Ok := by
  unfold Window.reset at hr
  split at hr
  · cases hr
  · rename_i hin
    cases hr
    refine h.withCursor ?_
    omega

/-- A mark that is held can be gone back to. -/
theorem Ok.reset_of_mem {w : Window} (h : w.Ok) {m : Mark} (hm : m ∈ w.marks) :
    w.reset m.offset = .ok { w with cursor := m.offset - w.discarded } := by
  have := h.marks_within m hm
  unfold Window.reset
  rw [if_neg (by omega)]

theorem position_reset {w w' : Window} {offset : Nat} (hr : w.reset offset = .ok w') :
    w'.position = offset := by
  unfold Window.reset at hr
  split at hr
  · cases hr
  · rename_i hin
    cases hr
    show w.discarded + (offset - w.discarded) = offset
    omega

theorem holds_iff {w : Window} {m : Mark} : w.holds m = true ↔ ∃ n ∈ w.marks, n.id = m.id := by
  unfold holds
  simp only [List.any_eq_true, beq_iff_eq]

theorem ok_empty (capacity : Nat) : (empty capacity).Ok where
  cursor_le := Nat.le_refl _
  limit_le := Nat.zero_le _
  marks_within := by simp [empty]
  marks_lt := by simp [empty]
  marks_distinct := by simp [empty]

end Window

end StreamParser
