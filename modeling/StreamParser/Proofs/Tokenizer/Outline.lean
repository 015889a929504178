import StreamParser.Proofs.Tokenizer.Mirror

/-!
# What the marks do to a request

The marks have a part in how a request is answered, but only by the first byte that has to be kept.

* `Tokenizer.outline` is a tokenizer with one mark in place of all, at this byte.  Requests are
  answered alike: `Tokenizer.find_outline`.
* `Tokenizer.unplaced` is a tokenizer without its cursor and its marks.  Two tokenizers that agree so
  far, with the same position and the same oldest place to keep, have the same outline
  (`Tokenizer.outline_eq`), and so answer alike: `Tokenizer.rawNext_congr`.
-/

namespace StreamParser

namespace Window

/-- The window with one mark in place of all, at the first byte that has to be kept. -/
def outline (w : Window) : Window :=
  { w with marks := [⟨0, w.discarded + w.retained⟩], nextMark := 1 }

theorem retained_outline (w : Window) : w.outline.retained = w.retained := by
  have := retained_le_cursor w
  show min w.cursor (w.discarded + w.retained - w.discarded) = w.retained
  omega

theorem pinned_outline (w : Window) : w.outline.pinned = w.pinned :=
  congrArg (w.cursor - ·) (retained_outline w)

theorem isFull_outline (w : Window) : w.outline.isFull = w.isFull := by
  unfold isFull
  rw [retained_outline]
  rfl

/-- In a compact window the byte is the first one. -/
theorem Ok.outline_compact {w : Window} (h : w.Ok) : w.compact.outline = w.outline.compact := by
  have hretained := retained_outline w
  have hcompact := h.retained_compact
  unfold outline at hretained ⊢
  rw [hcompact]
  simp only [Window.compact, hretained]
  rfl

end Window

namespace Tokenizer

variable {σ : Type}

/-- The tokenizer with one mark in place of all, at the first byte that has to be kept. -/
def outline (t : Tokenizer σ) : Tokenizer σ := { t with window := t.window.outline }

/-- The tokenizer without its cursor and its marks. -/
def unplaced (t : Tokenizer σ) : Tokenizer σ :=
  { t with window := { t.window with cursor := 0, marks := [], nextMark := 0 } }

variable {t u : Tokenizer σ}

theorem compacted_outline (h : t.window.Ok) : t.outline.compacted = t.compacted.outline := by
  have hretained : t.outline.window.retained = t.window.retained :=
    Window.retained_outline t.window
  have hcompact : t.outline.window.compact = t.window.compact.outline := h.outline_compact.symm
  unfold compacted
  rw [hretained, hcompact]
  rfl

/-- What an outline tells of a tokenizer, besides of its marks. -/
theorem unplaced_of_outline (h : t.outline = u.outline) :
    t.unplaced = u.unplaced ∧ t.position = u.position := by
  have hunplaced : t.outline.unplaced = u.outline.unplaced := congrArg unplaced h
  have hposition : t.outline.position = u.outline.position := congrArg position h
  exact ⟨hunplaced, hposition⟩

theorem discarded_of_unplaced (h : t.unplaced = u.unplaced) :
    t.window.discarded = u.window.discarded := by
  have hdiscarded := congrArg (fun t : Tokenizer σ => t.window.discarded) h
  exact hdiscarded

/-- The outline is told by what is kept, the position and the oldest place to keep. -/
theorem outline_eq (h : t.unplaced = u.unplaced) (hposition : t.position = u.position)
    (ht : t.window.Ok) (hu : u.window.Ok)
    (holdest : oldest t.position t.window.marks = oldest u.position u.window.marks) :
    t.outline = u.outline := by
  have hdiscarded := discarded_of_unplaced h
  have hretained := ht.discarded_add_retained
  have hretained' := hu.discarded_add_retained
  have hcursor : t.window.cursor = u.window.cursor := by
    have : t.window.discarded + t.window.cursor = u.window.discarded + u.window.cursor := hposition
    omega
  have hkept : t.window.discarded + t.window.retained = u.window.discarded + u.window.retained :=
    (hretained.trans holdest).trans hretained'.symm
  -- an outline is what is left without the place, with two things put back
  have hback : ∀ t : Tokenizer σ, t.outline = { t.unplaced with window :=
      { t.unplaced.window with
        cursor := t.window.cursor
        marks := [⟨0, t.window.discarded + t.window.retained⟩]
        nextMark := 1 } } := fun _ => rfl
  rw [hback t, hback u, h, hcursor, hkept]

variable [Source σ]

theorem read_outline (t : Tokenizer σ) : t.outline.read = (t.read.1, t.read.2.outline) := by
  have hroom : t.outline.window.room = t.window.room := rfl
  have hsource : t.outline.source = t.source := rfl
  unfold read
  rw [hroom, hsource]
  rcases Source.read t.source t.window.room with ⟨reply, s⟩
  cases reply with
  | read bytes count => rfl
  | finished => rfl
  | failed e => rfl

theorem fill_outline (t : Tokenizer σ) : t.outline.fill = (t.fill.1, t.fill.2.outline) := by
  have hread := read_outline (t.note [.initialFill t.window.capacity])
  have hnote : t.outline.note [.initialFill t.outline.window.capacity] =
      (t.note [.initialFill t.window.capacity]).outline := rfl
  unfold fill
  rw [hnote, hread]
  rcases (t.note [.initialFill t.window.capacity]).read with ⟨e | _, t'⟩
  · rfl
  · rfl

theorem refill_outline (h : t.window.Ok) : t.outline.refill = (t.refill.1, t.refill.2.outline) := by
  rw [refill_eq, refill_eq, compacted_outline h]
  exact read_outline t.compacted

/-- A tokenizer and its outline take the steps of a request together. -/
theorem mirrors_outline :
    Mirrors fun t u : Tokenizer σ => t.window.Ok ∧ u = t.outline where
  phase_eq := by
    rintro t u ⟨-, rfl⟩
    rfl
  effort_eq := by
    rintro t u ⟨-, rfl⟩
    rfl
  verdict_eq := by
    rintro t u ⟨-, rfl⟩ p
    rfl
  isFull_eq := by
    rintro t u ⟨-, rfl⟩
    exact t.window.isFull_outline
  capacity_eq := by
    rintro t u ⟨-, rfl⟩
    rfl
  pinned_eq := by
    rintro t u ⟨-, rfl⟩
    exact t.window.pinned_outline
  note := by
    rintro t u l ⟨h, rfl⟩
    exact ⟨h, rfl⟩
  enter := by
    rintro t u phase - ⟨h, rfl⟩
    exact ⟨h, rfl⟩
  fill := by
    rintro t u ⟨h, rfl⟩ -
    rw [fill_outline]
    exact ⟨rfl, (ok_fill h).1, rfl⟩
  refill := by
    rintro t u ⟨h, rfl⟩ - - -
    rw [refill_outline h]
    exact ⟨rfl, (ok_refill h).1, rfl⟩

/-- A request is answered alike with one mark in place of all. -/
theorem find_outline (h : t.window.Ok) (p : Pattern) :
    t.outline.find p = ((t.find p).1, (t.find p).2.outline) := by
  obtain ⟨hresult, -, hafter⟩ := mirrors_outline.find ⟨h, rfl⟩ p
  exact Prod.ext hresult hafter

/-- Tokenizers with the same outline answer alike, and still agree but for their marks. -/
theorem rawNext_congr (h : t.outline = u.outline) (ht : t.window.Ok) (hu : u.window.Ok)
    (p : Pattern) : (t.rawNext p).1 = (u.rawNext p).1 ∧
      (t.rawNext p).2.unplaced = (u.rawNext p).2.unplaced ∧
      (t.rawNext p).2.position = (u.rawNext p).2.position := by
  have hfind : ((t.find p).1, (t.find p).2.outline) = ((u.find p).1, (u.find p).2.outline) := by
    rw [← find_outline ht, ← find_outline hu, h]
  obtain ⟨hresult, hout⟩ := Prod.mk.inj hfind
  obtain ⟨hunplaced, hposition⟩ := unplaced_of_outline hout
  unfold rawNext
  rcases hf : t.find p with ⟨e | stop, t'⟩ <;> rcases hg : u.find p with ⟨e' | stop', u'⟩ <;>
    rw [hf, hg] at hresult hunplaced hposition hout <;> cases hresult
  · exact ⟨rfl, hunplaced, hposition⟩
  · have hfilled := congrArg (fun t : Tokenizer σ => t.window.filled) hout
    have hcursor := congrArg (fun t : Tokenizer σ => t.window.cursor) hout
    have htext : (t'.window.filled.take stop).drop t'.window.cursor =
        (u'.window.filled.take stop).drop u'.window.cursor :=
      congrArg₂ (fun l n => (List.take stop l).drop n) hfilled hcursor
    have hplace : t'.window.position = u'.window.position := hposition
    simp only [Window.take, htext, hplace]
    cases Utf8.text? ((u'.window.filled.take stop).drop u'.window.cursor) with
    | none => exact ⟨rfl, hunplaced, hposition⟩
    | some token =>
      -- the same token is consumed from the same bytes
      have hnoted := congrArg (fun t : Tokenizer σ => t.note [.matched p.source token]) hunplaced
      refine ⟨rfl, hnoted, ?_⟩
      show t'.window.discarded + stop = u'.window.discarded + stop
      rw [discarded_of_unplaced hunplaced]

end Tokenizer

end StreamParser
