import StreamParser.Proofs.Tokenizer.Bounds
import StreamParser.Proofs.Tokenizer.Failure
import StreamParser.Proofs.Tokenizer.Record

/-!
# Where a matcher gives up

A pattern that asks for words of all letters judges bytes of ASCII only, and gives up at the first
other byte that it reads.

* `FirstBeyond l start n` says that the byte at `n` is the first one of `l` from `start` on that is
  not of ASCII.
* `Pattern.firstBeyond_of_unsupported`: the offset that a match reports is that of the first such byte
  of its window.
* `Tokenizer.unsupported_offset`: so the error of a request tells a place in the window, and that is the
  place in the stream only if the window begins where the stream does.
-/

namespace StreamParser

/-! ### Bytes beyond ASCII -/

/-- The byte at `n` is the first from `start` on that is not of ASCII. -/
structure FirstBeyond (l : List UInt8) (start n : Nat) : Prop where
  le : start ≤ n
  beyond : ∃ b, l[n]? = some b ∧ 0x80 ≤ b
  before : ∀ k, start ≤ k → k < n → ∀ b, l[k]? = some b → b < 0x80

namespace FirstBeyond

variable {l : List UInt8} {start n m d : Nat}

/-- There is only one first byte. -/
theorem eq (h : FirstBeyond l start n) (h' : FirstBeyond l start m) : n = m := by
  have hle : ∀ {n m}, FirstBeyond l start n → FirstBeyond l start m → n ≤ m := by
    intro n m h h'
    by_contra hlt
    obtain ⟨b, hb, hbeyond⟩ := h'.beyond
    have hbefore := h.before m h'.le (Nat.lt_of_not_le hlt) b hb
    exact UInt8.not_le.2 hbefore hbeyond
  exact Nat.le_antisymm (hle h h') (hle h' h)

/-- The byte is told in the same way when what is before it is dropped. -/
theorem of_drop (h : FirstBeyond (l.drop d) start n) : FirstBeyond l (d + start) (d + n) where
  le := Nat.add_le_add_left h.le d
  beyond := by
    obtain ⟨b, hb, hbeyond⟩ := h.beyond
    rw [List.getElem?_drop] at hb
    exact ⟨b, hb, hbeyond⟩
  before k hk hkn b hb := by
    obtain ⟨k, rfl⟩ := Nat.exists_eq_add_of_le (Nat.le_trans (Nat.le_add_right d start) hk)
    refine h.before k (by omega) (by omega) b ?_
    rw [List.getElem?_drop]
    exact hb

/-- A byte of ASCII in front does not matter. -/
theorem cons {b : UInt8} (hb : b < 0x80) (h : FirstBeyond l 0 n) :
    FirstBeyond (b :: l) 0 (n + 1) where
  le := Nat.zero_le _
  beyond := h.beyond
  before k _ hk c hc := by
    cases k with
    | zero =>
      cases hc
      exact hb
    | succ k => exact h.before k (Nat.zero_le k) (Nat.lt_of_succ_lt_succ hk) c hc

theorem head {b : UInt8} (hb : 0x80 ≤ b) : FirstBeyond (b :: l) 0 0 where
  le := Nat.le_refl 0
  beyond := ⟨b, rfl, hb⟩
  before _ _ hk := absurd hk (Nat.not_lt_zero _)

end FirstBeyond

/-! ### Matches -/

namespace Pattern

open Scan

/-- A byte at which a scan is stuck is not of ASCII, and those that it has judged before are.  A scan
goes on only in states that are not dead. -/
theorem firstBeyond_of_stuck {asciiOnly : Bool} {s : State} {offset n : Nat} {last : Option Nat}
    {l : List UInt8} (hs : s.isDead = false) (h : scan asciiOnly s offset last l = .stuck n) :
    asciiOnly = true ∧ ∃ k, n = offset + k ∧ FirstBeyond l 0 k := by
  induction l generalizing s offset last with
  | nil => cases h
  | cons b l ih =>
    unfold scan State.step at h
    by_cases hstuck : s.isStuckAt asciiOnly b = true
    · rw [if_pos hstuck] at h
      cases h
      unfold State.isStuckAt at hstuck
      simp only [Bool.and_eq_true, decide_eq_true_eq] at hstuck
      exact ⟨hstuck.1.1, 0, rfl, .head hstuck.1.2⟩
    · rw [if_neg hstuck] at h
      -- the byte has been judged, and the scan goes on behind it
      have hrest : asciiOnly = true ∧ ∃ k, n = offset + 1 + k ∧ FirstBeyond l 0 k := by
        simp only at h
        split at h
        · rename_i hmatched
          exact ih (by simp [State.isDead, hmatched]) h
        · split at h
          · cases h
          · rename_i hdead
            exact ih (Bool.eq_false_iff.2 hdead) h
      obtain ⟨hascii, k, rfl, hk⟩ := hrest
      have hb : b < 0x80 := by
        refine UInt8.not_le.1 fun hb => hstuck ?_
        simp [State.isStuckAt, hascii, hs, hb]
      exact ⟨hascii, k + 1, by omega, hk.cons hb⟩

/-- The offset that a match reports is that of the first byte beyond ASCII behind the start. -/
theorem firstBeyond_of_unsupported {p : Pattern} {w : List UInt8} {start n : Nat} {atEnd : Bool}
    {source : String} (hs : start ≤ w.length)
    (h : p.matchAt w start atEnd = .error (.unsupported source n)) :
    source = p.source ∧ p.asciiOnly = true ∧ FirstBeyond w start n := by
  -- whatever is before the start, the scan is stuck
  have hscan : ∀ before, (scan p.asciiOnly (State.init before p.expr) start none
      (w.drop start)).answer p.source p.asciiOnly w.length atEnd =
        .error (.unsupported source n) →
      source = p.source ∧ p.asciiOnly = true ∧ FirstBeyond w start n := by
    intro before h
    cases hprogress : scan p.asciiOnly (State.init before p.expr) start none (w.drop start) with
    | finished last =>
      rw [hprogress] at h
      cases h
    | reached s last =>
      rw [hprogress] at h
      simp only [Progress.answer] at h
      split at h <;> cases h
    | stuck k =>
      rw [hprogress] at h
      cases h
      have hdead : (State.init before p.expr).isDead = false := State.isDead_arrive _ _ _
      obtain ⟨hascii, k, rfl, hk⟩ := firstBeyond_of_stuck hdead hprogress
      exact ⟨rfl, hascii, hk.of_drop⟩
  rw [matchAt_eq p w hs] at h
  cases hbefore : byteBefore w start with
  | none =>
    rw [hbefore] at h
    exact hscan none h
  | some b =>
    rw [hbefore] at h
    simp only at h
    split at h
    · cases h
    · exact hscan (some b) h

end Pattern

/-! ### Requests -/

namespace Tokenizer

variable {σ : Type} {t t' : Tokenizer σ} {p : Pattern} {e : PatternError}

/-- What a request that is stuck reports is the error of the match. -/
theorem matchAt_of_stuck (h : t.verdict p = .stuck e) :
    p.matchAt t.window.filled t.window.cursor t.exhausted = .error e := by
  unfold verdict at h
  split at h
  · rename_i hmatch
    cases h
    exact hmatch
  · cases h
  · cases h
  · split at h
    · cases h
    · split at h <;> cases h

variable [Source σ]

/-- A request that fails with an error of the matcher is stuck with it at last. -/
theorem Settles.stuck_of_pattern {r : Except TokenError Nat} (hs : Settles p t r t')
    (hr : r = .error (.pattern e)) : t'.verdict p = .stuck e := by
  induction hs with
  | found hv => cases hr
  | absent hv =>
    cases hr
    cases isRecoverable_of_absent hv
  | stuck hv =>
    cases hr
    exact hv
  | @full t hv hf =>
    have hshortage := isShortage_fullError t
    rw [Except.error.inj hr] at hshortage
    cases hshortage
  | failed hv hf hread =>
    cases hr
    cases isShortage_of_refill hread
  | again hv hf hread hs ih => exact ih hr

theorem stuck_of_find (h : t.window.Ok) (hf : t.find p = (.error (.pattern e), t')) :
    t'.verdict p = .stuck e := by
  rcases find_cases h p with ⟨-, hf'⟩ | ⟨-, e', t₁, hfill, hf'⟩ | ⟨t₁, -, hs⟩
  · rw [hf'] at hf
    cases hf
  · rw [hf'] at hf
    cases hf
    cases isShortage_of_fill hfill
  · rw [hf] at hs
    exact hs.stuck_of_pattern rfl

theorem stuck_of_rawNext (h : t.window.Ok) (hr : t.rawNext p = (.error (.pattern e), t')) :
    t'.verdict p = .stuck e := by
  rcases rawNext_cases t p with ⟨e', t₁, hf, hr'⟩ | ⟨stop, t₁, e', hf, htake, hr'⟩ |
    ⟨stop, t₁, token, w, hf, -, hr'⟩ <;> rw [hr'] at hr <;> cases hr
  · exact stuck_of_find h hf
  · unfold Window.take at htake
    split at htake <;> cases htake

/-- The offset that a request reports is told from the beginning of the window. -/
theorem firstBeyond_of_rawNext (h : t.window.Ok) {source : String} {n : Nat}
    (hr : t.rawNext p = (.error (.pattern (.unsupported source n)), t')) :
    source = p.source ∧ p.asciiOnly = true ∧ t'.window.Ok ∧ t'.position = t.position ∧
      FirstBeyond t'.window.filled t'.window.cursor n := by
  obtain ⟨hok, hsame⟩ := samePlace_of_rawNext_error h hr
  obtain ⟨hsource, hascii, hfirst⟩ :=
    Pattern.firstBeyond_of_unsupported hok.cursor_le (matchAt_of_stuck (stuck_of_rawNext h hr))
  exact ⟨hsource, hascii, hok, hsame.position_eq, hfirst⟩

/-- With a record a request does what it does without, and the window keeps to what was delivered. -/
theorem rawNext_record {s : σ} (ht : t.Fresh s) (ops : List Operation) (p : Pattern) :
    ((t.record.after ops).rawNext p).2.Stores ∧
      ((t.record.after ops).rawNext p).2.window = ((t.after ops).rawNext p).2.window := by
  have hoccurs : Occurs t.record ((t.record.after ops).rawNext p).2 :=
    (Occurs.after t.record ops).works (works_rawNext _ p)
  have hbare := rawNext_map Recorded.mimics (t.record.after ops) p
  have hafter : (t.record.after ops).map Recorded.source = t.after ops := bare_after_record t ops
  rw [hafter] at hbare
  exact ⟨hoccurs.stores ht.ok ht.stores, (congrArg (fun x => x.2.window) hbare).symm⟩

/-- **Where a request says that it gives up.**  Let a request be made after any operations whatever,
and let it fail because the matcher gives up at an offset.  Then the pattern asks for words of all
letters, and the offset is that of the first byte of the window, from the position on, that is not of
ASCII.  If the source was honest, the first such byte of the stream is at the same distance from the
bytes that were discarded; so the offset is its place in the stream only if none were. -/
theorem unsupported_offset {s : σ} (ht : t.Fresh s) (ops : List Operation) {p : Pattern}
    {source : String} {n : Nat}
    (h : ((t.after ops).rawNext p).1 = .error (.pattern (.unsupported source n))) :
    source = p.source ∧ p.asciiOnly = true ∧
      ∃ d w, d = ((t.after ops).rawNext p).2.window.discarded ∧
        w = ((t.after ops).rawNext p).2.window.filled ∧ d ≤ (t.after ops).position ∧
        FirstBeyond w ((t.after ops).position - d) n ∧
        (((t.record.after ops).rawNext p).2.source.honest = true →
          FirstBeyond ((t.record.after ops).rawNext p).2.source.delivered
              (t.after ops).position (d + n) ∧
            (FirstBeyond ((t.record.after ops).rawNext p).2.source.delivered
              (t.after ops).position n ↔ d = 0)) := by
  have hok := (Occurs.after t ops).ok ht.ok
  obtain ⟨hstores, hwindow⟩ := rawNext_record ht ops p
  rcases hr : (t.after ops).rawNext p with ⟨r, u⟩
  rw [hr] at h hwindow
  obtain rfl : r = _ := h
  obtain ⟨hsource, hascii, -, hposition, hfirst⟩ := firstBeyond_of_rawNext hok hr
  have hplace : u.window.discarded + u.window.cursor = (t.after ops).position := hposition
  refine ⟨hsource, hascii, u.window.discarded, u.window.filled, rfl, rfl, by omega, ?_,
    fun hhonest => ?_⟩
  · rw [← hplace, Nat.add_sub_cancel_left]
    exact hfirst
  · have hfilled := (hstores hhonest).1
    rw [hwindow] at hfilled
    rw [hfilled] at hfirst
    have hstream := hfirst.of_drop
    rw [hplace] at hstream
    refine ⟨hstream, fun hno => ?_, fun hnone => ?_⟩
    · have heq : u.window.discarded + n = n := hstream.eq hno
      exact Nat.add_eq_right.1 heq
    · rw [hnone, Nat.zero_add] at hstream
      exact hstream

/-- A tokenizer of two letters and another one beyond ASCII, which it gets byte by byte. -/
def accented : Tokenizer Script :=
  ⟨⟨Utf8.bytes "abé", [], some 1⟩, .empty 4, .uninitialized, false, .empty 1, none, []⟩

/-- The letter `b` at the end of a word. -/
def lastB : Pattern := ⟨"b\\b", .seq (.chars (.single 'b')) (.look (.word true .boundary))⟩

/-- The letter beyond ASCII begins at the place 2 of the stream.  The letter before it is in the window
alone, so the error tells the place 1. -/
theorem accented_is_misplaced :
    accented.Fresh accented.source ∧ Pattern.compile "b\\b" = .ok lastB ∧
      ((accented.after [takeLetter 'a']).rawNext lastB).1 =
        .error (.pattern (.unsupported "b\\b" 1)) ∧
      ((accented.record.after [takeLetter 'a']).rawNext lastB).2.source.delivered =
        [0x61, 0x62, 0xC3] ∧
      ¬ FirstBeyond ((accented.record.after [takeLetter 'a']).rawNext lastB).2.source.delivered
        (accented.after [takeLetter 'a']).position 1 := by
  have hfresh : accented.Fresh accented.source := .inr ⟨⟨4, 1, none⟩, rfl⟩
  have hfails : ((accented.after [takeLetter 'a']).rawNext lastB).1 =
      .error (.pattern (.unsupported "b\\b" 1)) := by decide +kernel
  have hdiscarded : ((accented.after [takeLetter 'a']).rawNext lastB).2.window.discarded = 1 := by
    decide +kernel
  have hhonest : ((accented.record.after [takeLetter 'a']).rawNext lastB).2.source.honest = true := by
    decide +kernel
  obtain ⟨-, -, d, w, hd, -, -, -, hstream⟩ := unsupported_offset hfresh [takeLetter 'a'] hfails
  refine ⟨hfresh, rfl, hfails, by decide +kernel, fun hno => ?_⟩
  have hnone := (hstream hhonest).2.1 hno
  rw [hd, hdiscarded] at hnone
  cases hnone

end Tokenizer

end StreamParser
