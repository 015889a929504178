import Mathlib.Data.List.Infix
import StreamParser.Proofs.Tokenizer.Bounds

/-!
# How long a mark can be gone back to

* `Client.Effect` says what an operation does to the marks: one is set, one or all are given up, or
  all stay, and then the bytes from every mark on stay too (`Tokenizer.Quiet`).
* `Client.Tracks` is the invariant of a client: the marks that its tokenizer holds are among those
  that it was given, and these are numbered in their order.
* `Tokenizer.mark_stands`: a mark is held until it is given up, and as long as it is held, to go back
  to it gives back the stream from there on.
-/

namespace StreamParser

/-- The bytes of the window from a place of the stream on. -/
def Window.since (w : Window) (offset : Nat) : List UInt8 := w.filled.drop (offset - w.discarded)

/-- What is taken up comes after what is there. -/
theorem Window.prefix_receive (w : Window) (bytes : List UInt8) (count : Nat) :
    w.filled <+: (w.receive bytes count).filled :=
  ⟨_, (List.append_assoc _ _ _).symm⟩

variable {σ : Type} [Source σ]

/-! ### What operations do to marks -/

namespace Tokenizer

/-- All marks stay, and after what was in the window from a mark on there is only more. -/
structure Quiet (t u : Tokenizer σ) : Prop where
  marks_eq : u.window.marks = t.window.marks
  nextMark_eq : u.window.nextMark = t.window.nextMark
  since_prefix : t.window.Ok → ∀ m ∈ t.window.marks,
    t.window.since m.offset <+: u.window.since m.offset

variable {t u v : Tokenizer σ}

omit [Source σ] in
/-- Only the bytes, their place in the stream and the marks matter. -/
theorem Quiet.of_eq (hm : u.window.marks = t.window.marks)
    (hn : u.window.nextMark = t.window.nextMark) (hf : u.window.filled = t.window.filled)
    (hd : u.window.discarded = t.window.discarded) : Quiet t u := by
  refine ⟨hm, hn, fun _ m _ => ?_⟩
  unfold Window.since
  rw [hf, hd]

omit [Source σ] in
theorem Quiet.of_window_eq (hw : u.window = t.window) : Quiet t u := by
  refine .of_eq ?_ ?_ ?_ ?_ <;> rw [hw]

omit [Source σ] in
/-- To make room drops only bytes before the oldest mark. -/
theorem quiet_compact (t : Tokenizer σ) : Quiet t { t with window := t.window.compact } := by
  refine ⟨rfl, rfl, fun hok m hm => ?_⟩
  have hold : t.window.discarded + t.window.retained ≤ m.offset := by
    rw [hok.discarded_add_retained]
    exact oldest_le_offset hm
  have hplace : t.window.retained + (m.offset - (t.window.discarded + t.window.retained)) =
      m.offset - t.window.discarded := by omega
  show t.window.since m.offset <+: (t.window.filled.drop t.window.retained).drop
    (m.offset - (t.window.discarded + t.window.retained))
  rw [List.drop_drop, hplace]
  exact List.prefix_rfl

theorem quiet_read (t : Tokenizer σ) : Quiet t t.read.2 := by
  rcases read_cases t with ⟨bytes, count, s, -, hr⟩ | ⟨s, -, hr⟩ | ⟨e, s, -, hr⟩ <;> rw [hr]
  · refine ⟨rfl, rfl, fun hok m hm => ?_⟩
    exact (Window.prefix_receive t.window bytes count).drop _
  · exact .of_window_eq rfl
  · exact .of_window_eq rfl

theorem Step.quiet (h : Step t u) : Quiet t u := by
  cases h with
  | aside hw hs => exact .of_window_eq hw
  | compact => exact quiet_compact t
  | read => exact quiet_read t
  | take hv hw =>
    rw [Window.eq_of_take hw]
    exact .of_eq rfl rfl rfl rfl

omit [Source σ] in
theorem Quiet.trans (h : Quiet t u) (h' : Quiet u v) (hok : t.window.Ok → u.window.Ok) :
    Quiet t v where
  marks_eq := h'.marks_eq.trans h.marks_eq
  nextMark_eq := h'.nextMark_eq.trans h.nextMark_eq
  since_prefix ht m hm :=
    (h.since_prefix ht m hm).trans (h'.since_prefix (hok ht) m (h.marks_eq ▸ hm))

theorem Works.quiet (h : Works t u) : Quiet t u := by
  induction h with
  | refl => exact .of_window_eq rfl
  | tail hworks hstep ih => exact ih.trans hstep.quiet fun ht => (Occurs.start.works hworks).ok ht

omit [Source σ] in
theorem quiet_reset (t : Tokenizer σ) (m : Mark) : Quiet t (t.reset m).2 := by
  rcases reset_cases t m with ⟨n, hr⟩ | ⟨e, hr⟩ <;> rw [hr]
  · exact .of_eq rfl rfl rfl rfl
  · exact .of_window_eq rfl

end Tokenizer

namespace Client

open Tokenizer (Quiet)

/-- What an operation does to the marks of the tokenizer, and to those that the client was given. -/
inductive Effect (c : Client (Tokenizer σ)) : Operation → Client (Tokenizer σ) → Prop
  | mark : Effect c (.request .mark) ⟨c.respondent.mark.2, c.marks ++ [c.respondent.mark.1]⟩
  | commit : Effect c (.request .commit) ⟨c.respondent.commit, c.marks⟩
  | release {k : Nat} {m : Mark} (hk : c.marks[k]? = some m) :
    Effect c (.request (.release k)) ⟨(c.respondent.release m).2, c.marks⟩
  | other {op : Operation} {u : Tokenizer σ} (hc : op ≠ .request .commit)
    (hr : ∀ k, op = .request (.release k) → c.marks[k]? = none) (hu : Quiet c.respondent u) :
    Effect c op ⟨u, c.marks⟩

theorem effect_perform (c : Client (Tokenizer σ)) (op : Operation) :
    Effect c op (c.perform op) := by
  have hperforms := performs_perform c op
  generalize c.perform op = c' at hperforms
  cases hperforms with
  | works hc hr hu => exact .other hc hr hu.quiet
  | mark => exact .mark
  | reset hk => exact .other (by simp) (by simp) (Tokenizer.quiet_reset _ _)
  | release hk => exact .release hk
  | commit => exact .commit
  | close => exact .other (by simp) (by simp) (.of_window_eq (Tokenizer.window_close _))

/-! ### The marks of a client -/

/-- The marks of a client: its tokenizer holds only marks that the client was given, and the marks
have the numbers 0, 1, ... in the order in which they were given. -/
structure Tracks (c : Client (Tokenizer σ)) : Prop where
  ok : c.respondent.window.Ok
  nextMark_eq : c.respondent.window.nextMark = c.marks.length
  id_eq : ∀ (k : Nat) (m : Mark), c.marks[k]? = some m → m.id = k
  given : ∀ m : Mark, m ∈ c.respondent.window.marks → c.marks[m.id]? = some m

variable {c : Client (Tokenizer σ)} {k : Nat} {m : Mark}

omit [Source σ] in
/-- A mark that the client was given is the only one with its number. -/
theorem Tracks.holds_iff (h : c.Tracks) (hk : c.marks[k]? = some m) :
    c.respondent.holds m = true ↔ m ∈ c.respondent.window.marks := by
  constructor
  · intro hheld
    obtain ⟨n, hn, hid⟩ := Window.holds_iff.1 hheld
    have hgiven := h.given n hn
    rw [hid, h.id_eq k m hk, hk] at hgiven
    rw [Option.some.inj hgiven]
    exact hn
  · exact fun hm => Window.holds_iff.2 ⟨m, hm, rfl⟩

/-- A mark is given with the next number, and once. -/
theorem Tracks.perform (h : c.Tracks) (op : Operation) : (c.perform op).Tracks := by
  have hok : (c.perform op).respondent.window.Ok :=
    (Tokenizer.Occurs.start.perform op).ok h.ok
  have heffect := effect_perform c op
  generalize c.perform op = c' at hok heffect
  cases heffect with
  | mark =>
    have hnext : c.respondent.mark.1.id = c.marks.length := h.nextMark_eq
    have hnew : (c.marks ++ [c.respondent.mark.1])[c.marks.length]? =
        some c.respondent.mark.1 := List.getElem?_concat_length
    refine ⟨hok, ?_, fun k m hk => ?_, fun m hm => ?_⟩
    · show c.respondent.window.nextMark + 1 = (c.marks ++ [c.respondent.mark.1]).length
      rw [h.nextMark_eq, List.length_append]
      rfl
    · have hk : (c.marks ++ [c.respondent.mark.1])[k]? = some m := hk
      rcases Nat.lt_trichotomy k c.marks.length with hlt | rfl | hgt
      · rw [List.getElem?_append_left hlt] at hk
        exact h.id_eq k m hk
      · rw [hnew] at hk
        cases hk
        exact hnext
      · rw [List.getElem?_eq_none (by rw [List.length_append, List.length_singleton]; omega)] at hk
        cases hk
    · show (c.marks ++ [c.respondent.mark.1])[m.id]? = some m
      rcases List.mem_append.1 hm with hm | hm
      · have hgiven := h.given m hm
        have hlt : m.id < c.marks.length := (List.getElem?_eq_some_iff.1 hgiven).1
        rw [List.getElem?_append_left hlt]
        exact hgiven
      · have hm : m = c.respondent.mark.1 := List.mem_singleton.1 hm
        rw [hm, hnext]
        exact hnew
  | commit =>
    have hwindow := Tokenizer.window_commit c.respondent
    refine ⟨hok, ?_, h.id_eq, fun m hm => ?_⟩
    · show c.respondent.commit.window.nextMark = c.marks.length
      rw [hwindow]
      exact h.nextMark_eq
    · have hm : m ∈ c.respondent.commit.window.marks := hm
      rw [hwindow] at hm
      exact absurd hm List.not_mem_nil
  | release hk =>
    exact ⟨hok, h.nextMark_eq, h.id_eq, fun m hm => h.given m (List.mem_of_mem_filter hm)⟩
  | other hc hr hu =>
    exact ⟨hok, hu.nextMark_eq.trans h.nextMark_eq, h.id_eq,
      fun m hm => h.given m (hu.marks_eq ▸ hm)⟩

/-- What was given stays given. -/
theorem marks_perform (hk : c.marks[k]? = some m) (op : Operation) :
    (c.perform op).marks[k]? = some m := by
  have heffect := effect_perform c op
  generalize c.perform op = c' at heffect
  cases heffect with
  | mark =>
    have hlt : k < c.marks.length := (List.getElem?_eq_some_iff.1 hk).1
    show (c.marks ++ [c.respondent.mark.1])[k]? = some m
    rw [List.getElem?_append_left hlt]
    exact hk
  | commit => exact hk
  | release hk' => exact hk
  | other hc hr hu => exact hk

/-- A mark that the client was given is held after an operation if it was held before, unless the
operation gives it up. -/
theorem Tracks.held_perform (h : c.Tracks) (hk : c.marks[k]? = some m) (op : Operation) :
    (c.perform op).respondent.holds m = true ↔
      c.respondent.holds m = true ∧ op ≠ .request .commit ∧ op ≠ .request (.release k) := by
  rw [(h.perform op).holds_iff (marks_perform hk op), h.holds_iff hk]
  have heffect := effect_perform c op
  generalize c.perform op = c' at heffect
  cases heffect with
  | mark =>
    have hne : m ≠ c.respondent.mark.1 := by
      intro heq
      have hlt : k < c.marks.length := (List.getElem?_eq_some_iff.1 hk).1
      have hid := h.id_eq k m hk
      have hnext : c.respondent.mark.1.id = c.marks.length := h.nextMark_eq
      rw [heq, hnext] at hid
      omega
    show m ∈ c.respondent.window.marks ++ [c.respondent.mark.1] ↔ _
    simp [hne]
  | commit =>
    show m ∈ c.respondent.commit.window.marks ↔ _
    rw [Tokenizer.window_commit]
    simp [Window.forget]
  | @release k' m' hk' =>
    have hid := h.id_eq k m hk
    have hid' := h.id_eq k' m' hk'
    show m ∈ c.respondent.window.marks.filter (fun n => n.id != m'.id) ↔ _
    rw [List.mem_filter, bne_iff_ne, hid, hid']
    simp [eq_comm]
  | other hc hr hu =>
    have hne : op ≠ .request (.release k) := by
      intro heq
      rw [hr k heq] at hk
      cases hk
    show m ∈ _ ↔ _
    rw [hu.marks_eq]
    simp [hc, hne]

/-! ### Runs of a client -/

theorem Tracks.performAll (h : c.Tracks) (ops : List Operation) : (c.performAll ops).Tracks := by
  induction ops generalizing c with
  | nil => exact h
  | cons op ops ih => exact ih (h.perform op)

theorem marks_performAll (hk : c.marks[k]? = some m) (ops : List Operation) :
    (c.performAll ops).marks[k]? = some m := by
  induction ops generalizing c with
  | nil => exact hk
  | cons op ops ih => exact ih (marks_perform hk op)

/-- A mark is held as long as it is not given up. -/
theorem Tracks.held_performAll (h : c.Tracks) (hk : c.marks[k]? = some m) (ops : List Operation) :
    (c.performAll ops).respondent.holds m = true ↔ c.respondent.holds m = true ∧
      .request .commit ∉ ops ∧ .request (.release k) ∉ ops := by
  induction ops generalizing c with
  | nil => simp
  | cons op ops ih =>
    rw [performAll_cons, ih (h.perform op) (marks_perform hk op), h.held_perform hk op,
      List.mem_cons, List.mem_cons, not_or, not_or, ne_comm, ne_comm (b := op)]
    tauto

/-- As long as a mark is held, what was in the window from its place on stays there. -/
theorem Tracks.since_performAll (h : c.Tracks) (hk : c.marks[k]? = some m)
    (ops : List Operation) (hheld : (c.performAll ops).respondent.holds m = true) :
    c.respondent.window.since m.offset <+:
      (c.performAll ops).respondent.window.since m.offset := by
  induction ops generalizing c with
  | nil => exact List.prefix_rfl
  | cons op ops ih =>
    have hfirst := ih (h.perform op) (marks_perform hk op) hheld
    refine List.IsPrefix.trans ?_ hfirst
    -- the mark is held at the end, and so it was held all the time
    obtain ⟨hbefore, hnot, -⟩ := (h.held_performAll hk (op :: ops)).1 hheld
    have hm := (h.holds_iff hk).1 hbefore
    have heffect := effect_perform c op
    generalize c.perform op = c' at heffect
    cases heffect with
    | mark => exact List.prefix_rfl
    | commit => exact absurd List.mem_cons_self hnot
    | release hk' => exact List.prefix_rfl
    | other hc hr hu => exact hu.since_prefix h.ok m hm

end Client

/-! ### The main result -/

namespace Tokenizer

variable {t : Tokenizer σ}

omit [Source σ] in
/-- A client of a fresh tokenizer was given no marks. -/
theorem Fresh.tracks {s : σ} (h : t.Fresh s) : (Client.start t).Tracks := by
  have hwindow : (Client.start t).respondent.window = .empty t.window.capacity := h.window_eq
  refine ⟨h.ok, ?_, fun k m hk => ?_, fun m hm => ?_⟩
  · rw [hwindow]
    rfl
  · cases hk
  · rw [hwindow] at hm
    cases hm

omit [Source σ] in
/-- To go back to a mark that is held. -/
theorem reset_of_mem (h : t.window.Ok) {m : Mark} (hm : m ∈ t.window.marks) :
    t.reset m = (.ok (), { t with
      window := { t.window with cursor := m.offset - t.window.discarded } }) := by
  have hheld : t.holds m = true := Window.holds_iff.2 ⟨m, hm, rfl⟩
  unfold reset
  rw [if_pos hheld, h.reset_of_mem hm]

omit [Source σ] in
/-- From a place in the window on, the window and what is to come are the stream from there on. -/
theorem Stores.since_append {t : Tokenizer (Recorded σ)} (h : t.Stores)
    (hhonest : t.source.honest = true) {offset : Nat} (hin : t.window.discarded ≤ offset)
    (hle : offset ≤ t.window.discarded + t.window.limit) (rest : List UInt8) :
    t.window.since offset ++ rest = (t.source.delivered ++ rest).drop offset := by
  obtain ⟨hfilled, hlength⟩ := h hhonest
  have hplace : t.window.discarded + (offset - t.window.discarded) = offset := by omega
  unfold Window.since
  rw [hfilled, List.drop_drop, hplace, List.drop_append_of_le_length (by omega)]

/-- **Marks stand.**  Let a fresh tokenizer run, over any source: some operations come `before` a mark
is set, and some `after` it.

* The mark is held as long as there is neither a commit nor a release of this very mark.
* As long as it is held, to go back to it succeeds; the position is that of the mark; what was in the
  window when the mark was set is there again; and if the source was honest, the unconsumed bytes,
  and then whatever the source has yet to deliver, are the stream from the mark on.
* When it is not held, to go back to it fails and changes nothing. -/
theorem mark_stands {s : σ} (ht : t.Fresh s) (before after : List Operation) :
    let c := (Client.start t).performAll before
    let m := c.respondent.mark.1
    let ops := before ++ .request .mark :: after
    let u := t.after ops
    (u.holds m = true ↔
        .request .commit ∉ after ∧ .request (.release c.marks.length) ∉ after) ∧
      (u.holds m = true → (u.reset m).1 = .ok () ∧ (u.reset m).2.position = m.offset ∧
        c.respondent.window.unconsumed <+: (u.reset m).2.window.unconsumed ∧
        ((t.record.after ops).source.honest = true → ∀ rest,
          (u.reset m).2.window.unconsumed ++ rest =
            ((t.record.after ops).source.delivered ++ rest).drop m.offset)) ∧
      (u.holds m = false → u.reset m = (.error (.staleMark m.offset), u)) := by
  intro c m ops u
  have hc : c.Tracks := ht.tracks.performAll before
  -- the client when the mark was set, and at the end
  have hmarked : (c.perform (.request .mark)).Tracks := hc.perform _
  have hk : (c.perform (.request .mark)).marks[c.marks.length]? = some m :=
    List.getElem?_concat_length
  have hu : u = ((c.perform (.request .mark)).performAll after).respondent := by
    show (Client.performAll _ _).respondent = _
    rw [Client.performAll_append, Client.performAll_cons]
  have hset : (c.perform (.request .mark)).respondent.holds m = true :=
    (hmarked.holds_iff hk).2 (List.mem_append_right _ (List.mem_singleton.2 rfl))
  have hheld := hmarked.held_performAll hk after
  rw [← hu] at hheld
  refine ⟨?_, fun hyes => ?_, fun hno => ?_⟩
  · rw [hheld]
    exact and_iff_right hset
  · have hok : u.window.Ok := (Occurs.after t ops).ok ht.ok
    have hmem : m ∈ u.window.marks := by
      rw [hu] at hyes ⊢
      exact ((hmarked.performAll after).holds_iff (Client.marks_performAll hk after)).1 hyes
    have hreset := reset_of_mem hok hmem
    have hin := hok.marks_within m hmem
    rw [hreset]
    refine ⟨rfl, ?_, ?_, fun hhonest rest => ?_⟩
    · exact Window.position_reset (hok.reset_of_mem hmem)
    · have hsince := hmarked.since_performAll hk after (hu ▸ hyes)
      rw [← hu] at hsince
      have hunconsumed : (c.perform (.request .mark)).respondent.window.since m.offset =
          c.respondent.window.unconsumed := by
        show c.respondent.window.filled.drop
          (c.respondent.window.discarded + c.respondent.window.cursor -
            c.respondent.window.discarded) = _
        rw [Nat.add_sub_cancel_left]
        rfl
      rw [hunconsumed] at hsince
      exact hsince
    · have hstores := (Occurs.after t.record ops).stores ht.ok ht.stores
      have hwindow : (t.record.after ops).window = u.window := window_after_record t ops
      rw [← hwindow] at hin
      have hstream := hstores.since_append hhonest hin.1 hin.2 rest
      rw [hwindow] at hstream
      exact hstream
  · unfold reset
    rw [hno]
    rfl

/-- The second letter and the third, with a mark before them that keeps both in the window. -/
def pinned : Tokenizer Script :=
  dripping.after ([takeLetter 'a'] ++ .request .mark :: [takeLetter 'a', takeLetter 'b'])

/-- The mark was set behind the first letter, and from there on all is there again. -/
theorem pinned_goes_back :
    dripping.Fresh dripping.source ∧ pinned.holds ⟨0, 1⟩ = true ∧
      (pinned.reset ⟨0, 1⟩).1 = .ok () ∧ (pinned.reset ⟨0, 1⟩).2.position = 1 ∧
      (pinned.reset ⟨0, 1⟩).2.window.unconsumed = [0x61, 0x62] := by
  have hfresh : dripping.Fresh dripping.source := .inr ⟨⟨2, 1, none⟩, rfl⟩
  have hmark : ((Client.start dripping).performAll [takeLetter 'a']).respondent.mark.1 =
      ⟨0, 1⟩ := by decide +kernel
  have hhonest : (dripping.record.after ([takeLetter 'a'] ++ .request .mark ::
      [takeLetter 'a', takeLetter 'b'])).source.honest = true := by decide +kernel
  have hdelivered : (dripping.record.after ([takeLetter 'a'] ++ .request .mark ::
      [takeLetter 'a', takeLetter 'b'])).source.delivered = [0x61, 0x61, 0x62] := by
    decide +kernel
  obtain ⟨hheld, hback, -⟩ :=
    mark_stands hfresh [takeLetter 'a'] [takeLetter 'a', takeLetter 'b']
  rw [hmark] at hheld hback
  unfold pinned
  have hholds := hheld.2 ⟨by simp [takeLetter], by simp [takeLetter]⟩
  obtain ⟨hok, hposition, -, hstream⟩ := hback hholds
  have hrest := hstream hhonest []
  rw [hdelivered, List.append_nil, List.append_nil] at hrest
  exact ⟨hfresh, hholds, hok, hposition, hrest⟩

end Tokenizer

end StreamParser
