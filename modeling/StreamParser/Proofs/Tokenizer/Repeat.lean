import StreamParser.Proofs.Tokenizer.Endless
import StreamParser.Proofs.Tokenizer.Protocol
import StreamParser.Proofs.Tokenizer.Whole

/-!
# Asking again

A tokenizer that has read ahead and gone back has other bytes in its window than before, and may have
given up some.  A request that is made again is answered as before nevertheless.

* `Tokenizer.Level t u` says what counts: the two tokenizers are at the same place, their windows have
  the same capacity, and their marks are at the same places.
* `Tokenizer.Determined I P` says that tokenizers with the property `I` that are level answer alike.
  This holds of the tokenizers of a finite stream, of an endless stream, and of closed ones.
* `Tokenizer.exists_determined`: whatever a client has done with a tokenizer whose source does not
  fail, the tokenizer has one of these properties.
-/

namespace StreamParser

namespace Whole

variable {w w' : Whole} {p : Pattern}

/-- What is found depends on the stream, the capacity, the place and what has to be kept. -/
theorem lookup_congr (hs : w'.stream = w.stream) (hc : w'.capacity = w.capacity)
    (hp : w'.position = w.position) (ho : w'.oldest = w.oldest) : w'.lookup p = w.lookup p := by
  have hwindow : w'.window = w.window := by
    unfold window
    rw [hs, hc, ho]
  have hover : w'.Overflows p ↔ w.Overflows p := by
    unfold Overflows
    rw [hwindow, hs, hc, hp, ho]
  have herror : w'.overflow = w.overflow := by
    unfold overflow
    rw [hc, hp, ho]
  have hmismatch : w'.mismatch p = w.mismatch p := by
    unfold mismatch
    rw [hs, hp]
  unfold lookup
  rw [herror, hmismatch, hs, hp]
  by_cases h : w.Overflows p
  · rw [if_pos h, if_pos (hover.2 h)]
  · rw [if_neg h, if_neg (mt hover.1 h)]

theorem rawNext_congr (hs : w'.stream = w.stream) (hc : w'.capacity = w.capacity)
    (hp : w'.position = w.position) (ho : w'.oldest = w.oldest) :
    (w'.rawNext p).1 = (w.rawNext p).1 ∧ (w'.rawNext p).2.position = (w.rawNext p).2.position := by
  have hlookup : w'.lookup p = w.lookup p := lookup_congr hs hc hp ho
  cases h : w.lookup p with
  | ok stop =>
    obtain ⟨token, htext⟩ := Option.isSome_iff_exists.1 (isSome_text?_of_lookup h)
    rw [h] at hlookup
    have htext' : Utf8.text? ((w'.stream.take stop).drop w'.position) = some token := by
      rw [hs, hp]
      exact htext
    rw [rawNext_of_ok h htext, rawNext_of_ok hlookup htext']
    exact ⟨rfl, rfl⟩
  | error e =>
    rw [h] at hlookup
    rw [rawNext_of_error h, rawNext_of_error hlookup]
    exact ⟨rfl, hp⟩

end Whole

namespace Tokenizer

variable {σ τ : Type}

/-- The two tokenizers are at the same place, have the same capacity, and have marks at the same
places. -/
structure Level (t : Tokenizer σ) (u : Tokenizer τ) : Prop where
  position_eq : u.position = t.position
  capacity_eq : u.window.capacity = t.window.capacity
  offsets_eq : u.window.marks.map Mark.offset = t.window.marks.map Mark.offset

variable [Source σ] [Source τ] {t : Tokenizer σ} {u : Tokenizer τ} {l : List UInt8}

/-- Tokenizers of the same finite stream answer alike, even over sources of different types. -/
theorem Serves.rawNext_eq (ht : t.Serves l) (hu : u.Serves l) (h : Level t u) {p : Pattern}
    (hp : p.Streamable) : (u.rawNext p).1 = (t.rawNext p).1 ∧
      (u.rawNext p).2.position = (t.rawNext p).2.position := by
  obtain ⟨-, htresult, htwhole⟩ := ht.rawNext hp
  obtain ⟨-, huresult, huwhole⟩ := hu.rawNext hp
  have holdest : (u.whole l).oldest = (t.whole l).oldest := by
    show oldest u.position u.window.marks = oldest t.position t.window.marks
    rw [h.position_eq, oldest_congr h.offsets_eq]
  obtain ⟨hresult, hposition⟩ : ((u.whole l).rawNext p).1 = ((t.whole l).rawNext p).1 ∧
      ((u.whole l).rawNext p).2.position = ((t.whole l).rawNext p).2.position :=
    Whole.rawNext_congr rfl h.capacity_eq h.position_eq holdest
  rw [← htwhole, ← huwhole] at hposition
  rw [htresult, huresult]
  exact ⟨hresult, hposition⟩

/-- A property of tokenizers that is kept by whatever a tokenizer does; and those that have it answer
requests for patterns in `P` alike if they are level. -/
structure Determined (I : Tokenizer σ → Prop) (P : Pattern → Prop) : Prop where
  upheld : Upheld I
  rawNext_eq : ∀ {t u p}, I t → I u → Level t u → P p →
    (u.rawNext p).1 = (t.rawNext p).1 ∧ (u.rawNext p).2.position = (t.rawNext p).2.position

theorem determined_serves (l : List UInt8) :
    Determined (fun t : Tokenizer σ => t.Serves l) Pattern.Streamable where
  upheld := upheld_serves l
  rawNext_eq ht hu h hp := ht.rawNext_eq hu h hp

/-- An endless stream may be cut off behind the two windows. -/
theorem determined_draws (S : Stream' UInt8) :
    Determined (fun t : Tokenizer σ => t.Draws S) Pattern.Streamable where
  upheld := upheld_draws S
  rawNext_eq {t u p} ht hu h hp := by
    have hfar : t.position + t.window.capacity < t.position + t.window.capacity + 1 :=
      Nat.lt_succ_self _
    generalize t.position + t.window.capacity + 1 = n at hfar
    have hfar' : u.position + u.window.capacity < n := by
      rw [h.position_eq, h.capacity_eq]
      exact hfar
    have hserves : ∀ v : Tokenizer σ, v.Draws S → v.position + v.window.capacity < n →
        (v.curtail n).Serves (S.take n) := by
      intro v hv hn
      have hplace : v.position = v.window.discarded + v.window.cursor := rfl
      exact hv n (by omega)
    have hlevel : Level (t.curtail n) (u.curtail n) := ⟨h.position_eq, h.capacity_eq, h.offsets_eq⟩
    have hanswers := (hserves t ht hfar).rawNext_eq (hserves u hu hfar') hlevel hp
    rw [ht.rawNext_curtail hfar, hu.rawNext_curtail hfar'] at hanswers
    exact hanswers

theorem determined_closed (P : Pattern → Prop) :
    Determined (fun t : Tokenizer σ => t.window.Ok ∧ (t.phase = .closed ↔ True)) P where
  upheld := upheld_closed True
  rawNext_eq {t u p} ht hu h hp := by
    rw [rawNext_of_closed (ht.2.2 trivial), rawNext_of_closed (hu.2.2 trivial)]
    exact ⟨rfl, h.position_eq⟩

/-- After some operations a tokenizer has the property still, or is closed. -/
theorem Upheld.after {I : Tokenizer σ → Prop} (hI : Upheld I) (h : I t) (ops : List Operation) :
    I (t.after ops) ∨ (t.after ops).window.Ok ∧ ((t.after ops).phase = .closed ↔ True) := by
  have hboth := hI.or (upheld_closed True)
  refine hboth.performAll (c := Client.start t) (fun {t} h => .inr ?_) (.inl h) ops
  have hok := hboth.ok h
  rw [← window_close t] at hok
  exact ⟨hok, iff_true_intro (phase_close t)⟩

end Tokenizer

/-- No read from the source fails: it hands out the bytes of a finite or of an endless stream, cut as
it likes. -/
def Unfailing {σ : Type} [Source σ] (s : σ) : Prop := (∃ l, Delivers s l) ∨ ∃ S, Endless s S

/-- **Whatever was done with a tokenizer, its answers are determined**, if its source does not fail. -/
theorem Tokenizer.exists_determined {σ : Type} [Source σ] {s : σ} (hs : Unfailing s)
    {t : Tokenizer σ} (ht : t.Fresh s) (ops : List Operation) :
    ∃ I : Tokenizer σ → Prop, Determined I Pattern.Streamable ∧ I (t.after ops) := by
  rcases hs with ⟨l, hl⟩ | ⟨S, hS⟩
  · rcases (upheld_serves l).after (ht.serves hl) ops with h | h
    · exact ⟨_, determined_serves l, h⟩
    · exact ⟨_, determined_closed _, h⟩
  · rcases (upheld_draws S).after (ht.draws hS) ops with h | h
    · exact ⟨_, determined_draws S, h⟩
    · exact ⟨_, determined_closed _, h⟩

end StreamParser
