import Mathlib.Data.Set.Finite.Basic
import Mathlib.Order.OrderIsoNat
import StreamParser.Proofs.Tokenizer.Protocol

/-!
# Feeds

A source tells beforehand how often it may answer a read without bytes.  A feed promises nothing.

* `Feed.Rests s`: in whatever way one reads from the feed `s`, only finitely many reads bring
  nothing.  There need be no bound on their number.  `Feed.Rests.acc` is the induction that this gives.
* `Feed.rests_of_patience`: every source is such a feed.
* `Rationed` makes a source of a feed by rationing the reads without bytes.  `Rationed.read_eq` says
  that the answers are those of the feed as long as the ration lasts.
* `Feed.IsBehind f` says that sources answer as the feed does, as long as a ration lasts.
  `Tokenizer.atop` is a tokenizer over such a source, and `Tokenizer.read_atop` says what one read of
  it does.
-/

namespace StreamParser

/-- Something to read from, which does not promise how often it answers without bytes. -/
class Feed (σ : Type) where
  /-- Read at most `room` bytes. -/
  read : σ → (room : Nat) → Reply × σ
  /-- Let go of what the feed holds. -/
  close : σ → Option IoError × σ

namespace Feed

/-- Every source is a feed. -/
instance (σ : Type) [Source σ] : Feed σ := ⟨Source.read, Source.close⟩

variable {σ : Type} [Feed σ] {s s' : σ}

/-- The feed after `n` reads, of which the read `i` offers room for `rooms i` bytes. -/
def after (s : σ) (rooms : Nat → Nat) : Nat → σ
  | 0 => s
  | n + 1 => (read (after s rooms n) (rooms n)).2

/-- However the feed is read from, only finitely many reads are answered without bytes. -/
def Rests (s : σ) : Prop :=
  ∀ rooms : Nat → Nat, (∀ i, 0 < rooms i) →
    {i | (read (after s rooms i) (rooms i)).1.isEmptyRead = true}.Finite

/-- Offer `room` first, and then `rooms`. -/
def offer (room : Nat) (rooms : Nat → Nat) : Nat → Nat
  | 0 => room
  | i + 1 => rooms i

/-- The first read is one of the reads. -/
theorem after_read (s : σ) (room : Nat) (rooms : Nat → Nat) (n : Nat) :
    after (read s room).2 rooms n = after s (offer room rooms) (n + 1) := by
  induction n with
  | zero => rfl
  | succ n ih =>
    show (read (after (read s room).2 rooms n) (rooms n)).2 = _
    rw [ih]
    rfl

theorem Rests.read (h : Rests s) {room : Nat} (hroom : 0 < room) {reply : Reply}
    (hread : Feed.read s room = (reply, s')) : Rests s' := by
  obtain rfl : (Feed.read s room).2 = s' := congrArg Prod.snd hread
  intro rooms hrooms
  have hall := h (offer room rooms) fun i => by
    cases i with
    | zero => exact hroom
    | succ i => exact hrooms i
  -- the reads after the first one are some of all
  refine (hall.preimage Nat.succ_injective.injOn).subset fun i hi => ?_
  have hi : (Feed.read (after (Feed.read s room).2 rooms i) (rooms i)).1.isEmptyRead = true := hi
  rw [after_read] at hi
  exact hi

/-- A feed rests if it rests after each first read. -/
theorem rests_of_read (h : ∀ room, 0 < room → Rests (Feed.read s room).2) : Rests s := by
  intro rooms hrooms
  have hlater := h (rooms 0) (hrooms 0) (fun i => rooms (i + 1)) fun i => hrooms (i + 1)
  have hrooms : offer (rooms 0) (fun i => rooms (i + 1)) = rooms := by
    funext i
    cases i with
    | zero => rfl
    | succ i => rfl
  simp only [after_read, hrooms] at hlater
  -- all reads are the first one and the later ones
  refine ((hlater.image Nat.succ).insert 0).subset fun i hi => ?_
  cases i with
  | zero => exact Set.mem_insert 0 _
  | succ i => exact Set.mem_insert_of_mem 0 ⟨i, hi, rfl⟩

/-- One read without bytes leads from `s` to `s'`. -/
def Idles (s' s : σ) : Prop :=
  ∃ room, 0 < room ∧ (read s room).1.isEmptyRead = true ∧ (read s room).2 = s'

/-- So there is no infinite row of reads without bytes, though there may be rows of any length. -/
theorem Rests.acc (h : Rests s) : Acc Idles s := by
  by_contra hacc
  obtain ⟨f, rfl, hf⟩ := not_acc_iff_exists_descending_chain.1 hacc
  choose rooms hrooms hempty hnext using hf
  have hafter : ∀ n, after (f 0) rooms n = f n := by
    intro n
    induction n with
    | zero => rfl
    | succ n ih =>
      show (Feed.read (after (f 0) rooms n) (rooms n)).2 = f (n + 1)
      rw [ih, hnext]
  have hall : {i | (Feed.read (after (f 0) rooms i) (rooms i)).1.isEmptyRead = true} = Set.univ :=
    Set.eq_univ_of_forall fun i => by
      show (Feed.read (after (f 0) rooms i) (rooms i)).1.isEmptyRead = true
      rw [hafter]
      exact hempty i
  exact Set.infinite_univ (hall ▸ h rooms hrooms)

/-- A source keeps its promise. -/
theorem rests_of_patience {σ : Type} [Source σ] (s : σ) : Rests s := by
  intro rooms hrooms
  have hstep : ∀ i, Source.patience (after s rooms (i + 1)) +
      (if (Feed.read (after s rooms i) (rooms i)).1.isEmptyRead then 1 else 0) ≤
        Source.patience (after s rooms i) := fun i =>
    Source.patience_read (after s rooms i) (rooms i) (hrooms i)
  have hanti : Antitone fun i => Source.patience (after s rooms i) :=
    antitone_nat_of_succ_le fun i => Nat.le_of_add_right_le (hstep i)
  -- what is left of the patience tells the reads without bytes apart
  refine Set.Finite.of_injOn (t := Set.Iic (Source.patience s)) (f := fun i =>
    Source.patience (after s rooms i)) (fun i _ => hanti (Nat.zero_le i)) ?_ (Set.finite_Iic _)
  have hlt : ∀ i j, (Feed.read (after s rooms i) (rooms i)).1.isEmptyRead = true → i < j →
      Source.patience (after s rooms j) < Source.patience (after s rooms i) := by
    intro i j hi hij
    have hstep := hstep i
    rw [if_pos hi] at hstep
    exact Nat.lt_of_le_of_lt (hanti hij) hstep
  intro i hi j hj heq
  rcases Nat.lt_trichotomy i j with hij | rfl | hij
  · exact absurd heq (Nat.ne_of_gt (hlt i j hi hij))
  · rfl
  · exact absurd heq (Nat.ne_of_lt (hlt j i hj hij))

end Feed

/-! ### Rations -/

/-- A feed that may answer `ration` more reads without bytes. -/
structure Rationed (σ : Type) where
  feed : σ
  ration : Nat

namespace Rationed

variable {σ : Type} [Feed σ]

/-- What a read without bytes answers when the ration is used up. -/
def overdrawn : IoError := ⟨.other, "the ration of reads without bytes is used up"⟩

/-- A read without bytes uses up one of the ration. -/
def read (r : Rationed σ) (room : Nat) : Reply × Rationed σ :=
  let (reply, s) := Feed.read r.feed room
  if reply.isEmptyRead then
    match r.ration with
    | 0 => (.failed overdrawn, ⟨s, 0⟩)
    | n + 1 => (reply, ⟨s, n⟩)
  else (reply, ⟨s, r.ration⟩)

instance : Source (Rationed σ) where
  read := read
  close r :=
    let (e, s) := Feed.close r.feed
    (e, ⟨s, r.ration⟩)
  patience := ration
  patience_read r room _ := by
    unfold read
    rcases hr : Feed.read r.feed room with ⟨reply, s⟩
    by_cases hempty : reply.isEmptyRead = true
    · simp only [if_pos hempty]
      cases r.ration with
      | zero => exact Nat.le_refl 0
      | succ n => simp only [if_pos hempty, Nat.le_refl]
    · simp only [if_neg hempty, Nat.add_zero, Nat.le_refl]

/-- As long as the ration lasts, the answers are those of the feed. -/
theorem read_eq {s s' : σ} {room : Nat} {reply : Reply} (h : Feed.read s room = (reply, s'))
    (k : Nat) :
    Source.read (⟨s, k + if reply.isEmptyRead then 1 else 0⟩ : Rationed σ) room =
      (reply, ⟨s', k⟩) := by
  show read _ room = _
  unfold read
  simp only [h]
  by_cases hempty : reply.isEmptyRead = true
  · simp only [if_pos hempty]
  · simp only [if_neg hempty, Nat.add_zero]

end Rationed

/-! ### What a feed is asked -/

namespace Call

/-- A read was answered without bytes. -/
def isEmptyRead : Call → Bool
  | read _ reply => reply.isEmptyRead
  | close _ => false

/-- A read has brought bytes. -/
def delivers : Call → Bool
  | read _ (.read _ count) => 0 < count
  | _ => false

end Call

/-- The ration that calls use up. -/
def rationOf (calls : List Call) : Nat := calls.countP Call.isEmptyRead

theorem rationOf_nil (k : Nat) : rationOf [] + k = k := Nat.zero_add k

theorem rationOf_cons (room : Nat) (reply : Reply) (calls : List Call) (k : Nat) :
    rationOf (.read room reply :: calls) + k =
      rationOf calls + k + if reply.isEmptyRead then 1 else 0 := by
  unfold rationOf
  rw [List.countP_cons, Nat.add_right_comm]
  rfl

/-- Other answers use up nothing. -/
theorem rationOf_singleton {room : Nat} {reply : Reply} (h : reply.isEmptyRead = false) (k : Nat) :
    rationOf [.read room reply] + k = k := by
  rw [rationOf_cons, h]
  exact Nat.zero_add k

namespace Feed

variable {σ : Type} [Feed σ]

/-- Read from one time after the other, always with room, the feed gives these answers. -/
inductive Answers : σ → List Call → σ → Prop
  | nil (s : σ) : Answers s [] s
  | cons {s s' s'' : σ} {room : Nat} {reply : Reply} {calls : List Call} (hroom : 0 < room)
    (hread : Feed.read s room = (reply, s')) (h : Answers s' calls s'') :
    Answers s (.read room reply :: calls) s''

/-- The source `f s n calls` answers as the feed `s` does, as long as no more than `n` reads are
answered without bytes; and if it has a log, `calls` are what was asked before. -/
structure IsBehind {τ : Type} [Source τ] (f : σ → Nat → List Call → τ) : Prop where
  read_eq : ∀ {s s' : σ} {room : Nat} {reply : Reply}, Feed.read s room = (reply, s') → ∀ k calls,
    Source.read (f s (k + if reply.isEmptyRead then 1 else 0) calls) room =
      (reply, f s' k (calls ++ [.read room reply]))

/-- The feed, with a ration of reads without bytes and a log. -/
def rationed (s : σ) (ration : Nat) (calls : List Call) : Logged (Rationed σ) :=
  ⟨⟨s, ration⟩, calls⟩

theorem isBehind_rationed : IsBehind (rationed : σ → Nat → List Call → Logged (Rationed σ)) :=
  ⟨fun hread k calls => Logged.read_eq (Rationed.read_eq hread k) calls⟩

/-- A source needs no ration. -/
theorem isBehind_source {σ : Type} [Source σ] :
    IsBehind fun (s : σ) _ calls => (⟨s, calls⟩ : Logged σ) :=
  ⟨fun hread _ calls => Logged.read_eq hread calls⟩

end Feed

namespace Tokenizer

variable {σ τ : Type}

/-- The tokenizer over a source in place of its feed, with a ration and a log. -/
def atop (f : σ → Nat → List Call → τ) (t : Tokenizer σ) (ration : Nat) (calls : List Call) :
    Tokenizer τ :=
  t.map (f · ration calls)

/-- The tokenizer when it has taken up some bytes, and has the feed `s` to read from then. -/
def fed (t : Tokenizer σ) (bytes : List UInt8) (count : Nat) (s : σ) : Tokenizer σ :=
  { t with source := s, window := t.window.receive bytes count }

/-- The tokenizer when it was told the end. -/
def ended (t : Tokenizer σ) (s : σ) : Tokenizer σ :=
  { t with source := s, exhausted := true }.note [.endOfInput t.position]

variable [Feed σ] [Source τ] {f : σ → Nat → List Call → τ} {s : σ}

/-- What one read does, as long as the ration lasts. -/
theorem read_atop (hf : Feed.IsBehind f) (t : Tokenizer σ) {reply : Reply}
    (hread : Feed.read t.source t.window.room = (reply, s)) (k : Nat) (calls : List Call) :
    (t.atop f (k + if reply.isEmptyRead then 1 else 0) calls).read =
      match reply with
      | .read bytes count =>
        (.ok (), (t.fed bytes count s).atop f k (calls ++ [.read t.window.room reply]))
      | .finished => (.ok (), (t.ended s).atop f k (calls ++ [.read t.window.room reply]))
      | .failed e =>
        (.error (.io e), atop f { t with source := s } k (calls ++ [.read t.window.room reply])) := by
  have hreply : Source.read (t.atop f (k + if reply.isEmptyRead then 1 else 0) calls).source
      (t.atop f (k + if reply.isEmptyRead then 1 else 0) calls).window.room =
        (reply, f s k (calls ++ [.read t.window.room reply])) := hf.read_eq hread k calls
  unfold Tokenizer.read
  rw [hreply]
  cases reply with
  | read bytes count => rfl
  | finished => rfl
  | failed e => rfl

end Tokenizer

end StreamParser
