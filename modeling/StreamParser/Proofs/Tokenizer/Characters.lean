import StreamParser.Proofs.Grammar.Agreement
import StreamParser.Proofs.Tokenizer.Spending

/-!
# No match cuts a character

What a pattern matches are whole characters.  So whatever was consumed is a text, and the place behind
it is one where a character begins.

* `Cursor.Reached text c`: the cursor `c` comes from the beginning of `text` by matches.
  `Cursor.Reached.exists_cut`: it cuts the text in two.
* `Client.Sliced` is the invariant of a client that only goes back to marks which it was given: the
  stream up to the position, and up to each mark, is a text.
* `Tokenizer.rawNext_ne_invalid`: so no request fails because bytes are no text.
* `matches_cut_no_character` puts together what follows for cursors and for tokenizers.
-/

namespace StreamParser

/-! ### Cursors -/

namespace Cursor

/-- The cursor comes from the beginning of the text by matches. -/
inductive Reached (text : String) : Cursor → Prop
  | start : Reached text (start text)
  | step {c c' : Cursor} {p : Pattern} {token : String} (h : Reached text c)
    (hm : c.matchPattern p = (.ok token, c')) : Reached text c'

/-- The place of the cursor is between two parts of the text. -/
structure Cuts (c : Cursor) (text before after : String) : Prop where
  bytes_eq : c.bytes = Utf8.bytes text
  text_eq : text = before ++ after
  position_eq : c.position = (Utf8.bytes before).length

variable {c c' : Cursor} {text before after : String} {p : Pattern} {stop : Nat}

theorem Cuts.drop_eq (h : c.Cuts text before after) : c.bytes.drop c.position = Utf8.bytes after := by
  rw [h.bytes_eq, h.position_eq, h.text_eq, Utf8.bytes_append, List.drop_left]

theorem Cuts.position_le (h : c.Cuts text before after) : c.position ≤ c.bytes.length := by
  rw [h.bytes_eq, h.position_eq, h.text_eq, Utf8.bytes_append, List.length_append]
  exact Nat.le_add_right _ _

theorem Cuts.remaining_eq (h : c.Cuts text before after) : c.remaining = after := by
  unfold remaining
  rw [h.drop_eq, Utf8.text?_bytes, Option.getD_some]

/-- Only at the end nothing remains. -/
theorem Cuts.isAtEnd (h : c.Cuts text before after) (hafter : after = "") : c.isAtEnd = true := by
  have hend := congrArg List.length h.drop_eq
  rw [hafter, List.length_drop] at hend
  unfold Cursor.isAtEnd
  rw [decide_eq_true_eq]
  exact Nat.le_of_sub_eq_zero hend

/-- A match takes a token off the part behind the place. -/
theorem Cuts.exists_token (h : c.Cuts text before after)
    (hm : p.matchAt c.bytes c.position true = .ok (.matched stop)) :
    ∃ token rest, c.matchPattern p = (.ok token, { c with position := stop }) ∧
      Utf8.text? ((c.bytes.take stop).drop c.position) = some token ∧
      Cuts { c with position := stop } text (before ++ token) rest := by
  obtain ⟨hle, hstop⟩ := Pattern.matchAt_le h.position_le hm
  obtain ⟨token, htoken⟩ :=
    Option.isSome_iff_exists.1 (Pattern.isSome_text?_of_matchAt h.position_le hm)
  have hslice := Utf8.bytes_of_text? htoken
  have htake : (c.bytes.take stop).length = stop := List.length_take_of_le hstop
  -- the bytes behind the place are those of the match and those behind it
  have hbytes : Utf8.bytes after = Utf8.bytes token ++ c.bytes.drop stop := by
    rw [← h.drop_eq, hslice, ← List.drop_append_of_le_length (by omega), List.take_append_drop]
  obtain ⟨y, hafter, -⟩ := Utf8.exists_of_encode_eq_append hbytes
  refine ⟨token, String.ofList y, matchPattern_of_matched hm htoken, htoken, h.bytes_eq, ?_, ?_⟩
  · have hparts : after = token ++ String.ofList y := by
      apply String.toList_inj.1
      rw [String.toList_append, String.toList_ofList, hafter]
    rw [h.text_eq, hparts, String.append_assoc]
  · have hlength := congrArg List.length hslice
    rw [List.length_drop, htake] at hlength
    have hposition := h.position_eq
    show stop = _
    rw [Utf8.bytes_append, List.length_append]
    omega

/-- Only a match moves the cursor. -/
theorem exists_of_matchPattern {token : String} (hm : c.matchPattern p = (.ok token, c')) :
    ∃ stop, p.matchAt c.bytes c.position true = .ok (.matched stop) ∧
      c' = { c with position := stop } := by
  unfold matchPattern at hm
  split at hm
  · cases hm
  · rename_i stop hmatch
    split at hm <;> cases hm
    exact ⟨stop, hmatch, rfl⟩
  · cases hm

/-- The place of a cursor that was reached is between two parts of the text. -/
theorem Reached.exists_cut (h : Reached text c) : ∃ before after, c.Cuts text before after := by
  induction h with
  | start => exact ⟨"", text, rfl, (String.empty_append).symm, rfl⟩
  | step h hm ih =>
    obtain ⟨before, after, hcut⟩ := ih
    obtain ⟨stop, hmatch, rfl⟩ := exists_of_matchPattern hm
    obtain ⟨token, rest, -, -, hcut⟩ := hcut.exists_token hmatch
    exact ⟨before ++ token, rest, hcut⟩

end Cursor

namespace Client

open Tokenizer (Spends Holding Occurs)

variable {σ : Type} [Source σ]

/-! ### Going back -/

/-- The stream up to the position, and up to each mark of the client, is a text. -/
structure Sliced (c : Client (Tokenizer (Recorded σ))) : Prop where
  holding : c.respondent.Holding
  position : c.respondent.source.honest = true → Utf8.IsText c.respondent.spent
  marks : c.respondent.source.honest = true → ∀ m ∈ c.marks,
    m.offset ≤ c.respondent.source.delivered.length ∧
      Utf8.IsText (c.respondent.source.delivered.take m.offset)

/-- A mark is one that the client had before, or it is at the position. -/
theorem of_mem_marks_perform (c : Client (Tokenizer (Recorded σ))) (op : Operation) :
    ∀ m ∈ (c.perform op).marks, m ∈ c.marks ∨ m.offset = c.respondent.position := by
  intro m hm
  have hperforms := performs_perform c op
  generalize c.perform op = c' at hperforms hm
  cases hperforms with
  | mark =>
    obtain hm | hm := List.mem_append.1 hm
    · exact .inl hm
    · rw [List.mem_singleton.1 hm]
      exact .inr rfl
  | _ => exact .inl hm

omit [Source σ] in
/-- To consume tokens, and to set and give up marks, cuts no character. -/
theorem Sliced.of_spends {c c' : Client (Tokenizer (Recorded σ))} (h : c.Sliced)
    (hholding : c'.respondent.Holding) {new : List Event}
    (hspends : Spends new c.respondent c'.respondent)
    (hmarks : ∀ m ∈ c'.marks, m ∈ c.marks ∨ m.offset = c.respondent.position) : c'.Sliced := by
  refine ⟨hholding, fun hhonest => ?_, fun hhonest m hm => ?_⟩
  · rw [hspends.spent_eq hhonest]
    exact (h.position (hspends.honest hhonest)).append (Utf8.isText_bytes _)
  · have hbefore := hspends.honest hhonest
    have hold : m.offset ≤ c.respondent.source.delivered.length ∧
        Utf8.IsText (c.respondent.source.delivered.take m.offset) := by
      obtain hm | hm := hmarks m hm
      · exact h.marks hbefore m hm
      · rw [hm]
        exact ⟨h.holding.position_le hbefore, h.position hbefore⟩
    obtain ⟨more, hmore⟩ := hspends.delivered_prefix
    rw [← hmore, List.length_append, List.take_append_of_le_length hold.1]
    exact ⟨Nat.le_trans hold.1 (Nat.le_add_right _ _), hold.2⟩

/-- To go back to a mark that the client was given cuts no character. -/
theorem Sliced.reset {c : Client (Tokenizer (Recorded σ))} (h : c.Sliced) {m : Mark}
    (hm : m ∈ c.marks) :
    Sliced ⟨(c.respondent.reset m).2, c.marks⟩ := by
  have hholding : Holding (c.respondent.reset m).2 :=
    ⟨(Occurs.start.reset m).ok h.holding.ok,
      (Occurs.start.reset m).stores h.holding.ok h.holding.stores⟩
  revert hholding
  unfold Tokenizer.reset
  split
  · split
    · rename_i w hw
      intro hholding
      refine ⟨hholding, fun hhonest => ?_, h.marks⟩
      have hplace : w.position = m.offset := Window.position_reset hw
      show Utf8.IsText (c.respondent.source.delivered.take w.position)
      rw [hplace]
      exact (h.marks hhonest m hm).2
    · exact fun _ => h
  · exact fun _ => h

theorem Sliced.perform {c : Client (Tokenizer (Recorded σ))} (h : c.Sliced) (op : Operation) :
    (c.perform op).Sliced := by
  cases hop : op.goesBack with
  | false =>
    obtain ⟨new, hnew⟩ := spends_perform h.holding hop
    exact h.of_spends (holding_perform h.holding op) hnew (of_mem_marks_perform c op)
  | true =>
    unfold Operation.goesBack at hop
    split at hop
    · rename_i k
      show (c.ask (.reset k)).2.Sliced
      cases hk : c.marks[k]? with
      | none =>
        rw [(ask_of_none hk).1]
        exact h
      | some m =>
        rw [(ask_of_some hk).1]
        exact h.reset (List.mem_of_getElem? hk)
    · cases hop

/-- Whatever a client does with the marks that it was given, no character is cut. -/
theorem Sliced.performAll {c : Client (Tokenizer (Recorded σ))} (h : c.Sliced)
    (ops : List Operation) : (c.performAll ops).Sliced := by
  induction ops generalizing c with
  | nil => exact h
  | cons op ops ih => exact ih (h.perform op)

end Client

namespace Tokenizer

variable {σ : Type} [Source σ]

/-! ### What was found is a text -/

omit [Source σ] in
theorem verdict_ne_invalid {t : Tokenizer σ} {p : Pattern} {e : TokenError}
    (h : t.verdict p = .absent e) (n : Nat) : e ≠ .invalidUtf8 n := by
  have hrecoverable := isRecoverable_of_absent h
  rintro rfl
  cases hrecoverable

/-- A search does not fail because bytes are no text. -/
theorem Settles.ne_invalid {t t' : Tokenizer σ} {p : Pattern} {r : Except TokenError Nat}
    (hs : Settles p t r t') (n : Nat) : r ≠ .error (.invalidUtf8 n) := by
  induction hs with
  | found hv => exact fun h => by cases h
  | absent hv =>
    intro h
    exact verdict_ne_invalid hv n (Except.error.inj h)
  | stuck hv => exact fun h => by cases h
  | @full t hv hf =>
    intro h
    have hshortage := isShortage_fullError t
    rw [Except.error.inj h] at hshortage
    cases hshortage
  | failed hv hf hr =>
    intro h
    have hshortage := isShortage_of_refill hr
    rw [Except.error.inj h] at hshortage
    cases hshortage
  | again hv hf hr hs ih => exact ih

/-- No request fails because bytes are no text. -/
theorem rawNext_ne_invalid {t : Tokenizer σ} (h : t.window.Ok) (p : Pattern) (n : Nat) :
    (t.rawNext p).1 ≠ .error (.invalidUtf8 n) := by
  have hfound := samePlace_find h p
  rcases rawNext_cases t p with ⟨e, t', hf, hr⟩ | ⟨stop, t', e, hf, htake, hr⟩ |
    ⟨stop, t', token, w, hf, -, hr⟩ <;> rw [hr]
  · rcases find_cases h p with ⟨-, hclosed⟩ | ⟨-, e', t₁, hfill, herror⟩ | ⟨t₁, -, hs⟩
    · rw [hf] at hclosed
      cases hclosed
      exact fun h => by cases h
    · rw [hf] at herror
      cases herror
      have hshortage := isShortage_of_fill hfill
      intro h
      rw [Except.error.inj h] at hshortage
      cases hshortage
    · rw [hf] at hs
      intro h
      exact hs.ne_invalid n (congrArg _ (Except.error.inj h))
  · rw [hf] at hfound
    obtain ⟨token, w, htake'⟩ := exists_take_of_found hfound.1 (verdict_of_find hf)
    rw [htake] at htake'
    cases htake'
  · exact fun h => by cases h

omit [Source σ] in
theorem Fresh.sliced {s : σ} {t : Tokenizer σ} (h : t.Fresh s) :
    (Client.start t.record).Sliced := by
  refine ⟨⟨h.ok, h.stores⟩, fun _ => ?_, fun _ m hm => absurd hm List.not_mem_nil⟩
  show Utf8.IsText (([] : List UInt8).take _)
  rw [List.take_nil]
  exact Utf8.isText_nil

/-- What was consumed without going back is told by the events, and it is what the stream has
there. -/
theorem exists_consumed {s : σ} {t : Tokenizer σ} (ht : t.Fresh s) (before between : List Operation)
    (hbetween : ∀ op ∈ between, op.goesBack = false) :
    let u := t.after before
    let v := t.after (before ++ between)
    ∃ new, v.events = new ++ u.events ∧
      v.position = u.position + (Utf8.bytes (Event.consumed new)).length ∧
      ((t.record.after (before ++ between)).source.honest = true →
        Utf8.text? (((t.record.after (before ++ between)).source.delivered.take v.position).drop
          u.position) = some (Event.consumed new)) := by
  intro u v
  have hsliced := ht.sliced.performAll before
  obtain ⟨new, hnew⟩ := Client.spends_performAll hsliced.holding hbetween
  rw [← Client.performAll_append] at hnew
  have hu : (t.record.after before).bare = u := bare_after_record t before
  have hv : (t.record.after (before ++ between)).bare = v :=
    bare_after_record t (before ++ between)
  rw [← hu, ← hv]
  refine ⟨new, hnew.events_eq, hnew.position_eq, fun hhonest => ?_⟩
  have hspent := hnew.spent_eq hhonest
  have hposition := hsliced.holding.position_le (hnew.honest hhonest)
  have hlength : (t.record.after before).spent.length = (t.record.after before).position :=
    List.length_take_of_le hposition
  show Utf8.text? ((t.record.after (before ++ between)).spent.drop
    (t.record.after before).position) = _
  rw [← hlength]
  have hdrop : (t.record.after (before ++ between)).spent.drop (t.record.after before).spent.length =
      Utf8.bytes (Event.consumed new) := by
    rw [show (t.record.after (before ++ between)).spent = _ from hspent]
    exact List.drop_left
  rw [hdrop, Utf8.text?_bytes]

end Tokenizer

/-! ### Cursors and tokenizers -/

/-- **No match cuts a character.**

A cursor that comes from the beginning of a text by matches is between two parts of the text.  What a
pattern matches there can be taken, and what remains is the second part, which is empty only at the
end.

Let a fresh tokenizer run, over any source and with any operations.

* No request in the run fails because bytes are no text.
* If the source was honest, the stream up to the position is a text, also when the client has gone
  back to marks which it was given.
* What is consumed without going back are the tokens that the events tell of, and if the source was
  honest, the stream has the text of these tokens there. -/
theorem matches_cut_no_character :
    (∀ (text : String) (c : Cursor), c.Reached text →
      c.position ≤ (Utf8.bytes text).length ∧
      (∃ before after, text = before ++ after ∧ c.position = (Utf8.bytes before).length ∧
        c.remaining = after) ∧
      (∀ p stop, p.matchAt c.bytes c.position true = .ok (.matched stop) →
        ∃ token, Utf8.text? ((c.bytes.take stop).drop c.position) = some token ∧
          c.matchPattern p = (.ok token, { c with position := stop })) ∧
      (c.remaining = "" → c.isAtEnd = true)) ∧
    ∀ (σ : Type) [Source σ] (s : σ) (t : Tokenizer σ), t.Fresh s → ∀ ops : List Operation,
      Tokenizer.Occurs t (t.after ops) ∧
      (∀ u, Tokenizer.Occurs t u → ∀ p n, (u.rawNext p).1 ≠ .error (.invalidUtf8 n)) ∧
      ((t.record.after ops).source.honest = true →
        Utf8.IsText ((t.record.after ops).source.delivered.take (t.after ops).position)) ∧
      ∀ between : List Operation, (∀ op ∈ between, op.goesBack = false) →
        let u := t.after ops
        let v := t.after (ops ++ between)
        ∃ new, v.events = new ++ u.events ∧
          v.position = u.position + (Utf8.bytes (Event.consumed new)).length ∧
          ((t.record.after (ops ++ between)).source.honest = true →
            Utf8.text? (((t.record.after (ops ++ between)).source.delivered.take v.position).drop
              u.position) = some (Event.consumed new)) := by
  constructor
  · intro text c hc
    obtain ⟨before, after, hcut⟩ := hc.exists_cut
    refine ⟨hcut.bytes_eq ▸ hcut.position_le,
      ⟨before, after, hcut.text_eq, hcut.position_eq, hcut.remaining_eq⟩, fun p stop hm => ?_,
      fun hnone => hcut.isAtEnd (hcut.remaining_eq ▸ hnone)⟩
    obtain ⟨token, rest, hmatch, htoken, -⟩ := hcut.exists_token hm
    exact ⟨token, htoken, hmatch⟩
  · intro σ _ s t ht ops
    refine ⟨.after t ops, fun u hu p n => Tokenizer.rawNext_ne_invalid (hu.ok ht.ok) p n,
      fun hhonest => ?_, fun between hbetween => Tokenizer.exists_consumed ht ops between hbetween⟩
    have htext := (ht.sliced.performAll ops).position hhonest
    rw [← Tokenizer.bare_after_record t ops]
    exact htext

/-- A letter of two bytes and a byte that is no text, which arrive one by one. -/
def halves : Tokenizer Script :=
  ⟨⟨[0xC3, 0xA9, 0xFF], [.hand 1, .hand 1, .hand 1], none⟩, .empty 2, .uninitialized, false,
    .empty 1, none, []⟩

/-- The letter is consumed and given back. -/
def goBack : List Operation :=
  [.request .mark, Tokenizer.takeLetter 'é', .request (.reset 0), .request (.release 0)]

/-- The letter is consumed, and then there is no other. -/
def goOn : List Operation := [Tokenizer.takeLetter 'é', Tokenizer.takeLetter 'a']

/-- A cursor behind the letter has the rest before it, and a tokenizer that has gone back consumes the
letter as a whole. -/
theorem halves_make_a_letter :
    ((Cursor.mk (Utf8.bytes "éa") 2).Reached "éa" ∧
      (Cursor.mk (Utf8.bytes "éa") 2).position ≤ (Utf8.bytes "éa").length) ∧
    halves.Fresh halves.source ∧ (∀ op ∈ goOn, op.goesBack = false) ∧
    (∀ p n, ((halves.after (goBack ++ goOn)).rawNext p).1 ≠ .error (.invalidUtf8 n)) ∧
    ∃ new, (halves.after (goBack ++ goOn)).events = new ++ (halves.after goBack).events ∧
      (halves.after goBack).position = 0 ∧ (halves.after (goBack ++ goOn)).position = 2 ∧
      Event.consumed new = "é" := by
  obtain ⟨hcursor, htokenizer⟩ := matches_cut_no_character
  have hreached : (Cursor.mk (Utf8.bytes "éa") 2).Reached "éa" := by
    have hmatch : (Cursor.start "éa").matchPattern ⟨"é", .chars (.single 'é')⟩ =
        (.ok "é", ⟨Utf8.bytes "éa", 2⟩) := by decide +kernel
    exact .step .start hmatch
  have hfresh : halves.Fresh halves.source := .inr ⟨⟨2, 1, none⟩, rfl⟩
  have hforward : ∀ op ∈ goOn, op.goesBack = false := by
    simp [goOn, Tokenizer.takeLetter, Operation.goesBack]
  obtain ⟨hoccurs, hnever, -, -⟩ := htokenizer Script halves.source halves hfresh (goBack ++ goOn)
  obtain ⟨-, -, -, hconsumed⟩ := htokenizer Script halves.source halves hfresh goBack
  obtain ⟨new, hnew, -, htext⟩ := hconsumed goOn hforward
  have hfirst : (halves.after goBack).position = 0 := by decide +kernel
  have hlast : (halves.after (goBack ++ goOn)).position = 2 := by decide +kernel
  have hhonest : (halves.record.after (goBack ++ goOn)).source.honest = true := by decide +kernel
  have hdelivered : (halves.record.after (goBack ++ goOn)).source.delivered = [0xC3, 0xA9, 0xFF] := by
    decide +kernel
  have htext := htext hhonest
  rw [hfirst, hlast, hdelivered] at htext
  have hletter : Utf8.text? (([0xC3, 0xA9, 0xFF].take 2).drop 0) = some "é" := by decide +kernel
  rw [hletter] at htext
  exact ⟨⟨hreached, (hcursor _ _ hreached).1⟩, hfresh, hforward,
    fun p n => hnever _ hoccurs p n, new, hnew, hfirst, hlast, (Option.some.inj htext).symm⟩

end StreamParser
