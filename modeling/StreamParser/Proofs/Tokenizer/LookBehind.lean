import StreamParser.Proofs.Tokenizer.Bounds
import StreamParser.Proofs.Tokenizer.Failure
import StreamParser.Proofs.Tokenizer.Supply

/-!
# Looking behind in a stream

* `Pattern.IsLookBehind` says that a pattern asks for nothing around it but the beginning of the text
  or of a line.  Such a pattern sees one byte of what comes before the place where it is matched.
* `Pattern.tokenAt` is the token that a pattern has at a place of a text that is all in memory.
* `Tokenizer.rawNext_of_lookBehind`: the tokenizer finds that token as long as the byte before the
  position is in the window.  Once the window begins at the position, the pattern takes the position
  for the beginning of the text.
-/

namespace StreamParser

/-- The assertion is about what comes before alone. -/
def Look.looksBehind : Look → Bool
  | textStart => true
  | lineStart => true
  | _ => false

namespace Pattern

open Scan

/-- All assertions of the pattern look behind. -/
def IsLookBehind (p : Pattern) : Prop := p.expr.anyLook (!·.looksBehind) = false

instance (p : Pattern) : Decidable p.IsLookBehind := inferInstanceAs (Decidable (_ = _))

/-- Where the token ends that the pattern has at a place of a text. -/
def stopAt (p : Pattern) (text : List UInt8) (start : Nat) : Except TokenError Nat :=
  match p.matchAt text start true with
  | .ok (.matched stop) => .ok stop
  | .ok _ =>
    .error (if start < text.length then .inputMismatch p.source else .noSuchElement .exhausted)
  | .error e => .error (.pattern e)

/-- The token that the pattern has at a place of a text. -/
def tokenAt (p : Pattern) (text : List UInt8) (start : Nat) : Except TokenError String :=
  match p.stopAt text start with
  | .ok stop =>
    match Utf8.text? ((text.take stop).drop start) with
    | some token => .ok token
    | none => .error (.invalidUtf8 start)
  | .error e => .error e

variable {p : Pattern} {text : List UInt8} {d start : Nat}

theorem IsLookBehind.asciiOnly (hp : p.IsLookBehind) : p.asciiOnly = false :=
  anyLook_of_imp (fun l hl => by cases l <;> first | rfl | cases hl) hp

/-- The end of the input looks like any byte to what looks behind. -/
theorem IsLookBehind.isBlindToEnd (hp : p.IsLookBehind) : p.IsBlindToEnd :=
  .inl (anyLook_of_imp (fun l hl => by cases l <;> first | rfl | cases hl) hp)

/-- The byte before a place is there as long as it is not dropped. -/
theorem byteBefore_drop (hd : d < start ∨ start = 0 ∧ d = 0) :
    byteBefore (text.drop d) (start - d) = byteBefore text start := by
  rcases hd with hd | ⟨rfl, rfl⟩
  · have hplace : d + (start - d - 1) = start - 1 := by omega
    unfold byteBefore
    rw [if_neg (by omega), if_neg (by omega), List.getElem?_drop, hplace]
  · rfl

/-- What is dropped from the beginning of a text does not matter as long as the byte before the start
is there. -/
theorem matchAt_drop (hp : p.asciiOnly = false) (hd : d < start ∨ start = 0 ∧ d = 0)
    (hs : start ≤ text.length) (atEnd : Bool) :
    p.matchAt text start atEnd =
      (p.matchAt (text.drop d) (start - d) atEnd).map (MatchStatus.shift d) := by
  have hle : d + (start - d) = start := by omega
  have hlength : text.length = d + (text.drop d).length := by
    rw [List.length_drop]
    omega
  have hscan : ∀ s, (scan false s start none (text.drop start)).answer p.source false text.length
        atEnd =
      ((scan false s (start - d) none ((text.drop d).drop (start - d))).answer p.source false
        (text.drop d).length atEnd).map (MatchStatus.shift d) := by
    intro s
    rw [← answer_shift, ← hlength, List.drop_drop, hle]
    rfl
  rw [matchAt_eq p text hs, matchAt_eq p (text.drop d) (by omega), byteBefore_drop hd, hp]
  cases byteBefore text start with
  | none => exact hscan _
  | some b => exact hscan _

/-- The same for the token. -/
theorem tokenAt_drop (hp : p.asciiOnly = false) (hd : d < start ∨ start = 0 ∧ d = 0)
    (hs : start ≤ text.length) : p.tokenAt (text.drop d) (start - d) = p.tokenAt text start := by
  have hlength : (text.drop d).length = text.length - d := List.length_drop
  have hstart : start - d ≤ (text.drop d).length := by omega
  obtain ⟨st, hst⟩ := exists_matchAt hp hstart true
  have hmatch : p.matchAt text start true = .ok (st.shift d) := by
    rw [matchAt_drop hp hd hs, hst]
    rfl
  have hinside : start - d < (text.drop d).length ↔ start < text.length := by omega
  unfold tokenAt stopAt
  rw [hst, hmatch]
  cases st with
  | matched stop =>
    -- a match is a text, in whatever part of the text it was found
    have hslice : ((text.drop d).take stop).drop (start - d) = (text.take (d + stop)).drop start := by
      have hle : d + (start - d) = start := by omega
      rw [List.take_drop, List.drop_drop, hle]
    obtain ⟨token, htoken⟩ := Option.isSome_iff_exists.1 (isSome_text?_of_matchAt hs hmatch)
    simp only [MatchStatus.shift, hslice, htoken]
  | needsInput => simp only [MatchStatus.shift, hinside]
  | noMatch => simp only [MatchStatus.shift, hinside]

end Pattern

namespace Tokenizer

variable {σ : Type} [Source σ] {t t' : Tokenizer σ} {l : List UInt8} {p : Pattern}

/-- The window holds the first bytes of the part of the stream that begins with it. -/
theorem Follows.exists_drop_eq (h : t.Follows l) :
    ∃ rest, l.drop t.window.discarded = t.window.filled ++ rest ∧
      (t.exhausted = true → rest = []) := by
  refine ⟨(l.drop t.window.discarded).drop t.window.limit, ?_, fun he => ?_⟩
  · rw [h.filled_eq, List.take_append_drop]
  · rw [List.drop_drop, h.ended he, List.drop_length]

/-- A settled answer for the window is that of the part of the stream that begins with it. -/
theorem Follows.matchAt_eq (h : t.Follows l) (hp : p.IsLookBehind) {st : MatchStatus}
    (hst : p.matchAt t.window.filled t.window.cursor t.exhausted = .ok st)
    (hn : st ≠ .needsInput) :
    p.matchAt (l.drop t.window.discarded) t.window.cursor true = .ok st := by
  obtain ⟨rest, hrest, hended⟩ := h.exists_drop_eq
  rw [hrest]
  cases he : t.exhausted with
  | true =>
    rw [he] at hst
    rw [hended he, List.append_nil]
    exact hst
  | false =>
    rw [he] at hst
    rcases Pattern.matchAt_append_cases h.ok.cursor_le hst hn rest with hall | ⟨hno, -⟩
    · exact hall true
    · exact absurd hp.isBlindToEnd hno

/-- The stream goes on behind the position if the window does. -/
theorem Follows.cursor_lt (h : t.Follows l) (hd : t.window.cursor ≠ t.window.limit) :
    t.window.cursor < (l.drop t.window.discarded).length := by
  obtain ⟨rest, hrest, -⟩ := h.exists_drop_eq
  have hle : t.window.cursor ≤ t.window.limit := h.ok.cursor_le
  have hlimit : t.window.limit = t.window.filled.length := rfl
  rw [hrest, List.length_append]
  omega

/-- If the source has ended, the stream ends where the window does. -/
theorem Follows.not_cursor_lt (h : t.Follows l) (hd : t.window.cursor = t.window.limit)
    (he : t.exhausted = true) : ¬ t.window.cursor < (l.drop t.window.discarded).length := by
  obtain ⟨rest, hrest, hended⟩ := h.exists_drop_eq
  rw [hrest, hended he, List.append_nil]
  exact Nat.not_lt.2 (Nat.le_of_eq hd.symm)

/-- If the window tells the answer, it is that of the part of the stream that begins with the
window. -/
theorem Follows.verdict_cases (h : t.Follows l) (hp : p.IsLookBehind) :
    t.verdict p = .wantsMore ∨
      (∃ stop, t.verdict p = .found stop ∧
        p.stopAt (l.drop t.window.discarded) t.window.cursor = .ok stop) ∨
      ∃ e, t.verdict p = .absent e ∧
        p.stopAt (l.drop t.window.discarded) t.window.cursor = .error e := by
  obtain ⟨st, hst⟩ := Pattern.exists_matchAt hp.asciiOnly h.ok.cursor_le t.exhausted
  have hwhole := h.matchAt_eq hp hst
  unfold verdict Pattern.stopAt
  rw [hst]
  cases st with
  | needsInput => exact .inl rfl
  | matched stop =>
    refine .inr (.inl ⟨stop, rfl, ?_⟩)
    rw [hwhole MatchStatus.noConfusion]
  | noMatch =>
    rw [hwhole MatchStatus.noConfusion]
    by_cases hdrained : t.window.cursor = t.window.limit
    · have hd : t.window.isDrained = true := beq_iff_eq.2 hdrained
      cases he : t.exhausted with
      | false => simp [hd]
      | true =>
        refine .inr (.inr ⟨.noSuchElement .exhausted, by simp [hd], ?_⟩)
        simp only [if_neg (h.not_cursor_lt hdrained he)]
    · have hd : t.window.isDrained = false := beq_eq_false_iff_ne.2 hdrained
      refine .inr (.inr ⟨.inputMismatch p.source, by simp [hd], ?_⟩)
      simp only [if_pos (h.cursor_lt hdrained)]

/-- A request comes to what the part of the stream has that begins with the window, or is cut
short. -/
theorem Settles.stopAt (hp : p.IsLookBehind) {r : Except TokenError Nat} (hs : Settles p t r t')
    (h : t.Follows l) (ho : t.IsOpen) :
    (∃ e, r = .error e ∧ e.isShortage = true) ∨
      r = p.stopAt (l.drop t'.window.discarded) t'.window.cursor := by
  induction hs with
  | found hv =>
    rcases h.verdict_cases hp with hv' | ⟨stop, hv', hstop⟩ | ⟨e, hv', -⟩ <;> rw [hv'] at hv <;>
      cases hv
    exact .inr hstop.symm
  | absent hv =>
    rcases h.verdict_cases hp with hv' | ⟨stop, hv', -⟩ | ⟨e, hv', hstop⟩ <;> rw [hv'] at hv <;>
      cases hv
    exact .inr hstop.symm
  | stuck hv =>
    rcases h.verdict_cases hp with hv' | ⟨stop, hv', -⟩ | ⟨e, hv', -⟩ <;> rw [hv'] at hv <;>
      cases hv
  | @full t hv hf => exact .inl ⟨_, rfl, isShortage_fullError t⟩
  | @failed t t' e hv hf hr => exact .inl ⟨e, rfl, isShortage_of_refill hr⟩
  | @again t t' t'' r hv hf hr hs ih =>
    have hwaits : Follows { t with phase := .needsInput } l :=
      h.of_eq rfl rfl rfl fun hc => absurd hc ho.ne_closed
    have hrefill := hwaits.refill Phase.noConfusion (exhausted_of_wantsMore (t := t) hv) hf
    have hphase := phase_refill { t with phase := .needsInput }
    rw [hr] at hrefill hphase
    exact ih hrefill (.inr hphase)

/-- What a request finds is what the part of the stream has that begins with the window. -/
theorem Attends.stopAt (h : t.Attends l) (hp : p.IsLookBehind) :
    (t.phase = .closed ∧ (t.find p).1 = .error (.noSuchElement .closed)) ∨
      (∃ e, (t.find p).1 = .error e ∧ e.isShortage = true) ∨
      (t.find p).1 =
        p.stopAt (l.drop (t.find p).2.window.discarded) (t.find p).2.window.cursor := by
  rcases h.find_cases p with ⟨hc, hf⟩ | ⟨e, hf, -⟩ | ⟨t', hfollows, ho, hs⟩
  · exact .inl ⟨hc, congrArg Prod.fst hf⟩
  · exact .inr (.inl ⟨_, hf, rfl⟩)
  · exact .inr (hs.stopAt hp hfollows ho)

/-- The token that is consumed is the one that the part of the stream has that begins with the
window. -/
theorem Attends.tokenAt (h : t.Attends l) (hp : p.IsLookBehind) :
    (t.phase = .closed ∧ (t.rawNext p).1 = .error (.noSuchElement .closed)) ∨
      (∃ e, (t.rawNext p).1 = .error e ∧ e.isShortage = true) ∨
      ∃ d, d = (t.rawNext p).2.window.discarded ∧ d ≤ t.position ∧
        (t.rawNext p).1 = p.tokenAt (l.drop d) (t.position - d) := by
  have hfind := h.stopAt hp
  have hfollows := ((upheld_attends l).find h p).toFollows
  have hplace := (samePlace_find h.ok p).2.1.position_eq
  -- the window after the request begins at or before the position
  have hposition : ∀ t' : Tokenizer σ, t'.position = t.position →
      t'.window.discarded ≤ t.position ∧ t.position - t'.window.discarded = t'.window.cursor := by
    intro t' hp'
    have : t'.position = t'.window.discarded + t'.window.cursor := rfl
    omega
  rcases rawNext_cases t p with ⟨e, t', hf, hr⟩ | ⟨stop, t', e, hf, htake, -⟩ |
    ⟨stop, t', token, w, hf, htake, hr⟩ <;> rw [hf] at hfind hplace hfollows
  · obtain ⟨hle, hcursor⟩ := hposition t' hplace
    rw [hr]
    rcases hfind with ⟨hc, he⟩ | ⟨e', he, hshort⟩ | hstop
    · exact .inl ⟨hc, congrArg Except.error (Except.error.inj he)⟩
    · exact .inr (.inl ⟨e', congrArg Except.error (Except.error.inj he), hshort⟩)
    · refine .inr (.inr ⟨_, rfl, hle, ?_⟩)
      unfold Pattern.tokenAt
      rw [hcursor, ← hstop]
  · obtain ⟨token, w, htake'⟩ := exists_take_of_found hfollows.ok (verdict_of_find hf)
    rw [htake] at htake'
    cases htake'
  · obtain ⟨hle, hcursor⟩ := hposition t' hplace
    have hstop := (samePlace_find h.ok p).2.2
    rw [hf] at hstop
    have hlimit : stop ≤ t'.window.limit := hstop stop rfl
    have hfound : p.stopAt (l.drop t'.window.discarded) t'.window.cursor = .ok stop := by
      rcases hfind with ⟨-, he⟩ | ⟨e', he, -⟩ | hfound
      · cases he
      · cases he
      · exact hfound.symm
    have hslice : (t'.window.filled.take stop).drop t'.window.cursor =
        ((l.drop t'.window.discarded).take stop).drop t'.window.cursor := by
      rw [hfollows.filled_eq, List.take_take, Nat.min_eq_left hlimit]
    rw [hr]
    refine .inr (.inr ⟨t'.window.discarded, ?_, hle, ?_⟩)
    · rw [Window.eq_of_take htake]
      rfl
    · have htext := Window.text_of_take htake
      unfold Pattern.tokenAt
      rw [hcursor, hfound]
      simp only [← hslice, htext]

/-- **What a pattern that looks behind finds in a stream.**  A request for a pattern that asks for
nothing but the beginning of the text or of a line, made after any operations whatever, is refused
because the tokenizer is closed, or fails for want of room or because a read failed, or else it finds
what the pattern has in the whole stream, if the window still has the byte before the position when
the request is answered.  If it does not, the request finds what the pattern has when the stream
begins at the position; so it finds what the whole stream has unless that makes a difference. -/
theorem rawNext_of_lookBehind {s : σ} (ht : t.Fresh s) (hs : Supplies s l) (ops : List Operation)
    (hp : p.IsLookBehind) :
    ((t.after ops).phase = .closed ∧
        ((t.after ops).rawNext p).1 = .error (.noSuchElement .closed)) ∨
      (∃ e, ((t.after ops).rawNext p).1 = .error e ∧ e.isShortage = true) ∨
      ∃ d, d = ((t.after ops).rawNext p).2.window.discarded ∧ d ≤ (t.after ops).position ∧
        ((t.after ops).rawNext p).1 =
          (if d < (t.after ops).position ∨ (t.after ops).position = 0 then
            p.tokenAt l (t.after ops).position
          else p.tokenAt (l.drop (t.after ops).position) 0) ∧
        (((t.after ops).rawNext p).1 = p.tokenAt l (t.after ops).position ↔
          ¬ (d = (t.after ops).position ∧ 0 < (t.after ops).position ∧
            p.tokenAt (l.drop (t.after ops).position) 0 ≠
              p.tokenAt l (t.after ops).position)) := by
  have hattends := (ht.attends hs).after ops
  generalize t.after ops = u at hattends
  rcases hattends.tokenAt hp with hclosed | hshort | ⟨d, hd, hle, htoken⟩
  · exact .inl hclosed
  · exact .inr (.inl hshort)
  have hlength : u.position ≤ l.length := by
    have := hattends.ok.cursor_le
    have := hattends.le_length
    show u.window.discarded + u.window.cursor ≤ l.length
    omega
  refine .inr (.inr ⟨d, hd, hle, ?_⟩)
  rw [htoken]
  by_cases hbefore : d < u.position ∨ u.position = 0
  · have hwhole := Pattern.tokenAt_drop (d := d) hp.asciiOnly (by omega) hlength
    rw [if_pos hbefore, hwhole]
    exact ⟨rfl, iff_of_true rfl (by omega)⟩
  · have hedge : d = u.position := by omega
    have hpos : 0 < u.position := by omega
    subst hedge
    rw [if_neg hbefore, Nat.sub_self]
    refine ⟨rfl, fun heq hne => hne.2.2 heq, fun hno => ?_⟩
    by_contra hne
    exact hno ⟨rfl, hpos, hne⟩

/-- A tokenizer of two letters, which it gets one by one; there is room for both. -/
def trickling : Tokenizer Script :=
  ⟨⟨[0x61, 0x62], [], some 1⟩, .empty 2, .uninitialized, false, .empty 1, none, []⟩

/-- The letter `b` at the beginning of the text. -/
def leadingB : Pattern :=
  ⟨"^b", .seq (.look .textStart) (.chars (.single 'b'))⟩

/-- The second letter is not at the beginning of the text; but when it has been read, the window
begins with it. -/
theorem leadingB_behind_a :
    trickling.Fresh trickling.source ∧ Supplies trickling.source [0x61, 0x62] ∧
      Pattern.compile "^b" = .ok leadingB ∧ leadingB.IsLookBehind ∧
      (trickling.after [takeLetter 'a']).position = 1 ∧
      leadingB.tokenAt [0x61, 0x62] 1 = .error (.inputMismatch "^b") ∧
      ((trickling.after [takeLetter 'a']).rawNext leadingB).1 = .ok "b" := by
  have hfresh : trickling.Fresh trickling.source := .inr ⟨⟨2, 1, none⟩, rfl⟩
  have hsupplies : Supplies trickling.source [0x61, 0x62] :=
    (Script.delivers (s := trickling.source) fun step hs => absurd hs List.not_mem_nil).supplies
  have hposition : (trickling.after [takeLetter 'a']).position = 1 := by decide +kernel
  have hopen : (trickling.after [takeLetter 'a']).phase = .ready := by decide +kernel
  have hanswered : ((trickling.after [takeLetter 'a']).rawNext leadingB).1.toBool = true := by
    decide +kernel
  have hrest : leadingB.tokenAt [0x62] 0 = .ok "b" := by decide +kernel
  have hdropped : ((trickling.after [takeLetter 'a']).rawNext leadingB).2.window.discarded = 1 := by
    decide +kernel
  refine ⟨hfresh, hsupplies, by rfl, by decide, hposition, by decide +kernel, ?_⟩
  rcases rawNext_of_lookBehind (p := leadingB) hfresh hsupplies [takeLetter 'a'] (by decide) with
    ⟨hclosed, -⟩ | ⟨e, he, hshort⟩ | ⟨d, hd, -, htoken, -⟩
  · rw [hopen] at hclosed
    cases hclosed
  · rw [he] at hanswered
    cases hanswered
  · rw [hdropped] at hd
    rw [htoken, hposition, hd]
    exact hrest

end Tokenizer

end StreamParser
