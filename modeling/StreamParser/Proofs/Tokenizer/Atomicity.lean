import StreamParser.Proofs.Tokenizer.Protocol
import StreamParser.Proofs.Tokenizer.Supply

/-!
# Requests that fail take nothing

A request that fails has not moved, and the marks are as they were (`samePlace_of_rawNext_error`).  It
may have read; here it is shown that what it has read is not lost.

* `Window.Holds w l` says that the window has the last of the bytes `l`.  Whatever a tokenizer does for
  a request, bytes are only added to those that the window held: `Tokenizer.Works.holds`.
* `Tokenizer.unconsumed_of_honest`: what a request that fails adds to the bytes that are not consumed is
  what its source has delivered meanwhile.
* `Tokenizer.Awaits t l` says that the bytes `l` are still to come.  Together with those that are not
  consumed they stay the same: `Tokenizer.Sound.awaits_of_rawNext_error`.
-/

namespace StreamParser

variable {σ : Type} [Source σ]

/-- The window holds the last of the bytes `l`. -/
def Window.Holds (w : Window) (l : List UInt8) : Prop :=
  w.filled = l.drop w.discarded ∧ l.length = w.discarded + w.limit

namespace Window.Holds

variable {w : Window} {l : List UInt8}

/-- A window holds its own bytes. -/
theorem padded (w : Window) : w.Holds (List.replicate w.discarded 0 ++ w.filled) := by
  refine ⟨?_, ?_⟩
  · rw [List.drop_left' List.length_replicate]
  · rw [List.length_append, List.length_replicate]
    rfl

theorem unconsumed_eq (h : w.Holds l) : w.unconsumed = l.drop w.position := by
  unfold unconsumed position
  rw [h.1, List.drop_drop]

theorem position_le (h : w.Holds l) (hok : w.Ok) : w.position ≤ l.length := by
  have := hok.cursor_le
  have hlength := h.2
  unfold position
  omega

theorem compact (h : w.Holds l) (hok : w.Ok) : w.compact.Holds l := by
  have hretained := hok.retained_le_limit
  have hlimit := limit_compact w
  have hdiscarded : w.compact.discarded = w.discarded + w.retained := rfl
  refine ⟨?_, ?_⟩
  · show w.filled.drop w.retained = l.drop (w.discarded + w.retained)
    rw [h.1, List.drop_drop]
  · have hlength := h.2
    omega

/-- What is taken up comes after what the window held. -/
theorem receive (h : w.Holds l) (bytes : List UInt8) (count : Nat) :
    ∃ more, (w.receive bytes count).Holds (l ++ more) := by
  obtain ⟨more, hmore⟩ : ∃ more, (w.receive bytes count).filled = w.filled ++ more :=
    ⟨_, List.append_assoc _ _ _⟩
  have hlength := h.2
  refine ⟨more, ?_, ?_⟩
  · rw [hmore, h.1, ← List.drop_append_of_le_length (by omega)]
    rfl
  · have hlimit : (w.receive bytes count).limit = w.limit + more.length := by
      unfold limit
      rw [hmore, List.length_append]
    have hdiscarded : (w.receive bytes count).discarded = w.discarded := rfl
    rw [List.length_append]
    omega

end Window.Holds

omit [Source σ] in
/-- The same record, with what was delivered before. -/
def Recorded.prepend (l : List UInt8) (r : Recorded σ) : Recorded σ :=
  { r with delivered := l ++ r.delivered }

/-- What was delivered before does not change the answers. -/
theorem Recorded.mimics_prepend (l : List UInt8) : 
    Source.Mimics (Recorded.prepend l : Recorded σ → Recorded σ) where
  read_eq r _ :=
    Prod.ext rfl (congrArg (Recorded.mk _ · _) (List.append_assoc l r.delivered _))
  close_eq _ := rfl
  patience_eq _ := rfl

namespace Tokenizer

variable {t t' : Tokenizer σ} {l : List UInt8} {p : Pattern}

/-- Whatever a tokenizer does for a request, bytes are only added to those that it held. -/
theorem Works.holds (h : Works t t') (hok : t.window.Ok) (hl : t.window.Holds l) :
    ∃ more, t'.window.Holds (l ++ more) := by
  induction h with
  | refl =>
    refine ⟨[], ?_⟩
    rw [List.append_nil]
    exact hl
  | @tail u v hwork hstep ih =>
    obtain ⟨more, hmore⟩ := ih
    have hu := Works.ok hwork hok
    cases hstep with
    | aside hw hs => exact ⟨more, hw ▸ hmore⟩
    | compact => exact ⟨more, hmore.compact hu⟩
    | read =>
      rcases read_cases u with ⟨bytes, count, s, -, hr⟩ | ⟨s, -, hr⟩ | ⟨e, s, -, hr⟩ <;> rw [hr]
      · obtain ⟨more', hmore'⟩ := hmore.receive bytes count
        rw [List.append_assoc] at hmore'
        exact ⟨_, hmore'⟩
      · exact ⟨more, hmore⟩
      · exact ⟨more, hmore⟩
    | take hv hw =>
      rw [Window.eq_of_take hw]
      exact ⟨more, hmore⟩

omit [Source σ] in
/-- What a request that fails adds to the bytes that are not consumed. -/
theorem unconsumed_of_holds {more : List UInt8} (hok : t.window.Ok) (hl : t.window.Holds l)
    (hl' : t'.window.Holds (l ++ more)) (hposition : t'.position = t.position) :
    t'.window.unconsumed = t.window.unconsumed ++ more := by
  rw [hl.unconsumed_eq, hl'.unconsumed_eq, show t'.window.position = t.window.position from hposition,
    List.drop_append_of_le_length (hl.position_le hok)]

/-- If the source is honest, a request that fails adds what was delivered meanwhile. -/
theorem unconsumed_of_honest (hok : t.window.Ok) {e : TokenError}
    (hr : t.rawNext p = (.error e, t'))
    (hhonest : (t.record.rawNext p).2.source.honest = true) :
    t'.window.unconsumed = t.window.unconsumed ++ (t.record.rawNext p).2.source.delivered := by
  have hl := Window.Holds.padded t.window
  generalize List.replicate t.window.discarded 0 ++ t.window.filled = l at hl
  have hwindow : (t.record.rawNext p).2.window = t'.window := by
    have hbare := rawNext_map Recorded.mimics t.record p
    rw [show t.record.map Recorded.source = t from rfl, hr] at hbare
    exact (congrArg (fun x => x.2.window) hbare).symm
  -- the record is continued from what the window holds already
  have hstart : (t.record.map (Recorded.prepend l)).Stores := by
    intro _
    show t.window.Holds (l ++ [])
    rw [List.append_nil]
    exact hl
  have hworks := works_rawNext (t.record.map (Recorded.prepend l)) p
  have hstores := (Occurs.start.works hworks).stores hok hstart
  rw [rawNext_map (Recorded.mimics_prepend l)] at hstores
  have hl' : t'.window.Holds (l ++ (t.record.rawNext p).2.source.delivered) :=
    hwindow ▸ hstores hhonest
  exact unconsumed_of_holds hok hl hl' (samePlace_of_rawNext_error hok hr).2.position_eq

/-- The bytes `l` are still to come from the source. -/
def Awaits (t : Tokenizer σ) (l : List UInt8) : Prop :=
  (t.exhausted = false → Supplies t.source l) ∧ (t.exhausted = true → l = [])

/-- What is not consumed and what is still to come. -/
theorem Follows.unconsumed_append (h : t.Follows l) :
    t.window.unconsumed ++ l.drop (t.window.discarded + t.window.limit) = l.drop t.position := by
  have hcursor : t.window.cursor ≤ t.window.filled.length := h.ok.cursor_le
  show t.window.filled.drop t.window.cursor ++ _ = l.drop (t.window.discarded + t.window.cursor)
  rw [← List.drop_drop, ← List.drop_drop, ← List.drop_append_of_le_length hcursor, h.filled_eq,
    List.take_append_drop]

/-- A tokenizer attends to what it holds and what is still to come. -/
theorem Sound.attends (ht : t.Sound) (hl : t.window.Holds l) {rest : List UInt8}
    (hrest : t.Awaits rest) : t.Attends (l ++ rest) := by
  have hdrop : (l ++ rest).drop (t.window.discarded + t.window.limit) = rest :=
    List.drop_left' hl.2
  refine ⟨⟨ht.ok, ht.capacity_pos, ?_, ?_, fun _ he => ?_, fun he => ?_⟩, ht.untouched⟩
  · rw [List.length_append, hl.2]
    exact Nat.le_add_right _ _
  · have hle : t.window.discarded ≤ l.length := by
      rw [hl.2]
      exact Nat.le_add_right _ _
    rw [List.drop_append_of_le_length hle, ← hl.1]
    exact (List.take_left' rfl).symm
  · rw [hdrop]
    exact hrest.1 he
  · rw [hrest.2 he, List.append_nil, hl.2]

/-- A request that fails takes nothing from what is not consumed and what is still to come. -/
theorem Sound.awaits_of_rawNext_error (ht : t.Sound) {rest : List UInt8} (hrest : t.Awaits rest)
    {e : TokenError} (hr : t.rawNext p = (.error e, t')) :
    ∃ rest', t'.Awaits rest' ∧
      t'.window.unconsumed ++ rest' = t.window.unconsumed ++ rest := by
  by_cases hclosed : t.phase = .closed
  · rw [rawNext_of_closed hclosed] at hr
    cases hr
    exact ⟨rest, hrest, rfl⟩
  · have hl := Window.Holds.padded t.window
    have hattends := ht.attends hl hrest
    have hattends' := (upheld_attends _).rawNext hattends p
    have hopen := ((upheld_closed False).rawNext ⟨ht.ok, iff_false_intro hclosed⟩ p).2
    obtain ⟨-, hplace⟩ := samePlace_of_rawNext_error ht.ok hr
    rw [hr] at hattends' hopen
    refine ⟨_, ⟨fun he => hattends'.supplies hopen.1 he, fun he => ?_⟩, ?_⟩
    · exact List.drop_eq_nil_iff.2 (Nat.le_of_eq (hattends'.ended he).symm)
    · rw [hattends'.unconsumed_append, hplace.position_eq, ← hattends.unconsumed_append,
        List.drop_left' hl.2]

end Tokenizer

end StreamParser
