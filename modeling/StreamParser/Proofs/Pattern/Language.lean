import StreamParser.Proofs.Pattern.Progress
import StreamParser.Proofs.Text.Utf8

/-!
# The language of a pattern

`Expr.Matches e x` says that the characters `x` are a word of the expression `e`, if its assertions
hold.  A scan finds nothing but words: `Pattern.word_of_matchAt`.

The threads of a scan either stand between two characters or know the first bytes of the one that
they are in.  All threads of a state agree about that, since they have read the same bytes; and what
a thread has read can be completed to a word by what is left for it to match (`Thread.Completes`).
-/

namespace StreamParser

/-- The characters are a word of the expression.  Assertions are taken to hold. -/
inductive Expr.Matches : Expr → List Char → Prop
  | empty : Matches empty []
  | chars {set : CodePoints} {c : Char} (h : set.contains c.toNat = true) : Matches (chars set) [c]
  | look {l : Look} : Matches (look l) []
  | seq {a b : Expr} {x y : List Char} (ha : Matches a x) (hb : Matches b y) :
    Matches (seq a b) (x ++ y)
  | first {a b : Expr} {x : List Char} (h : Matches a x) : Matches (alt a b) x
  | second {a b : Expr} {x : List Char} (h : Matches b x) : Matches (alt a b) x
  /-- One of the times that are asked for. -/
  | more {greedy : Bool} {least : Nat} {most : Option Nat} {e : Expr} {x y : List Char}
    (h : Matches e x) (hrest : Matches (rep greedy least (most.map (· - 1)) e) y) :
    Matches (rep greedy (least + 1) most e) (x ++ y)
  /-- One of the times that are allowed. -/
  | again {greedy : Bool} {most : Option Nat} {e : Expr} {x y : List Char} (hmost : most ≠ some 0)
    (h : Matches e x) (hrest : Matches (rep greedy 0 (most.map (· - 1)) e) y) :
    Matches (rep greedy 0 most e) (x ++ y)
  | enough {greedy : Bool} {most : Option Nat} {e : Expr} : Matches (rep greedy 0 most e) []

/-- The characters are a word of the expressions, one after the other. -/
def Expr.MatchesAll : List Expr → List Char → Prop
  | [], x => x = []
  | e :: rest, x => ∃ y z, x = y ++ z ∧ e.Matches y ∧ MatchesAll rest z

section MatchesAll

variable {a b c : Expr} {k : List Expr} {y : List Char}

theorem Expr.MatchesAll.imp_head (h : MatchesAll (a :: k) y)
    (hab : ∀ {z}, a.Matches z → b.Matches z) : MatchesAll (b :: k) y := by
  obtain ⟨y₁, y₂, rfl, ha, hk⟩ := h
  exact ⟨y₁, y₂, rfl, hab ha, hk⟩

/-- Two expressions in a row are taken together. -/
theorem Expr.MatchesAll.join (h : MatchesAll (a :: b :: k) y)
    (habc : ∀ {z₁ z₂}, a.Matches z₁ → b.Matches z₂ → c.Matches (z₁ ++ z₂)) :
    MatchesAll (c :: k) y := by
  obtain ⟨y₁, -, rfl, ha, y₂, y₃, rfl, hb, hk⟩ := h
  exact ⟨y₁ ++ y₂, y₃, (List.append_assoc _ _ _).symm, habc ha hb, hk⟩

end MatchesAll

namespace Utf8

/-- The bytes are those of `x` and of what is pending after it. -/
def Holds (l : List UInt8) (x : List Char) (pending : Option Lead) : Prop :=
  ∀ m, chars? none (l ++ m) = (chars? pending m).map (x ++ ·)

theorem holds_nil : Holds [] [] none := by
  intro m
  simp

theorem Holds.chars? {l : List UInt8} {x : List Char} (h : Holds l x none) :
    chars? none l = some x := by
  have := h []
  simpa [Utf8.chars?] using this

variable {l : List UInt8} {x : List Char} {pending : Option Lead} {b : UInt8}

theorem Holds.char {c : Char} (h : Holds l x pending) (hb : read pending b = .char c) :
    Holds (l ++ [b]) (x ++ [c]) none := by
  intro m
  rw [List.append_assoc, h, List.singleton_append, chars?_cons, hb]
  simp [Option.map_map, Function.comp_def]

theorem Holds.lead {lead : Lead} (h : Holds l x pending) (hb : read pending b = .lead lead) :
    Holds (l ++ [b]) x (some lead) := by
  intro m
  rw [List.append_assoc, h, List.singleton_append, chars?_cons, hb]

end Utf8

namespace Scan

variable {e : Expr} {known : Look → Bool}

/-- The character that the thread is in the middle of. -/
def Thread.pending : Thread → Option Utf8.Lead
  | start _ _ => none
  | inside lead _ _ => some lead

/-- After `x` what is left for the thread completes a word of `e`. -/
def Thread.Completes (e : Expr) (x : List Char) : Thread → Prop
  | start _ rest => ∀ y, Expr.MatchesAll rest y → e.Matches (x ++ y)
  | inside _ set rest => ∀ c y, set.contains c.toNat = true → Expr.MatchesAll rest y →
    e.Matches (x ++ c :: y)

/-- The thread has read the bytes `l`, which can be completed to a word of `e`. -/
def Thread.Reads (e : Expr) (l : List UInt8) (t : Thread) : Prop :=
  ∃ x, Utf8.Holds l x t.pending ∧ t.Completes e x

/-- The ways on at a repetition of which no more times are asked for: one more time, or none. -/
theorem Thread.eq_or_eq_of_mem_ways_rep {rank : Nat} {greedy : Bool} {most : Option Nat} {a : Expr}
    {k : List Expr} {u : Thread} (hmost : most ≠ some 0)
    (hu : u ∈ (start rank (.rep greedy 0 most a :: k)).ways known) :
    u = ofList (a :: .rep greedy 0 (most.map (· - 1)) a :: k) ∨ u = ofList k := by
  rcases most with _ | _ | n
  · cases greedy
    · exact (List.mem_pair.1 hu).symm
    · exact List.mem_pair.1 hu
  · exact absurd rfl hmost
  · cases greedy
    · exact (List.mem_pair.1 hu).symm
    · exact List.mem_pair.1 hu

/-- A way on that reads nothing leads to a list whose words are words of the list before. -/
theorem Thread.exists_ofList_of_mem_ways {rank : Nat} {rest : List Expr} {u : Thread}
    (hu : u ∈ (start rank rest).ways known) :
    ∃ rest', u = ofList rest' ∧ ∀ y, Expr.MatchesAll rest' y → Expr.MatchesAll rest y := by
  cases rest with
  | nil => simp [ways] at hu
  | cons a k =>
    have hempty : a.Matches [] → ∀ y, Expr.MatchesAll k y → Expr.MatchesAll (a :: k) y :=
      fun ha y hy => ⟨[], y, rfl, ha, hy⟩
    cases a with
    | empty =>
      rw [List.mem_singleton.1 hu]
      exact ⟨k, rfl, hempty .empty⟩
    | chars set => simp [ways] at hu
    | look l =>
      simp only [ways] at hu
      split at hu
      · rw [List.mem_singleton.1 hu]
        exact ⟨k, rfl, hempty .look⟩
      · exact absurd hu List.not_mem_nil
    | seq a b =>
      rw [List.mem_singleton.1 hu]
      exact ⟨a :: b :: k, rfl, fun y hy => hy.join fun ha hb => .seq ha hb⟩
    | alt a b =>
      rcases List.mem_pair.1 hu with rfl | rfl
      · exact ⟨a :: k, rfl, fun y hy => hy.imp_head .first⟩
      · exact ⟨b :: k, rfl, fun y hy => hy.imp_head .second⟩
    | rep greedy least most a =>
      cases least with
      | succ least =>
        rw [List.mem_singleton.1 hu]
        exact ⟨_, rfl, fun y hy => hy.join fun ha hrest => .more ha hrest⟩
      | zero =>
        by_cases hmost : most = some 0
        · subst hmost
          rw [List.mem_singleton.1 hu]
          exact ⟨k, rfl, hempty .enough⟩
        · rcases eq_or_eq_of_mem_ways_rep hmost hu with rfl | rfl
          · exact ⟨_, rfl, fun y hy => hy.join fun ha hrest => .again hmost ha hrest⟩
          · exact ⟨k, rfl, hempty .enough⟩

theorem Thread.Reads.ways {l : List UInt8} {t u : Thread} (h : t.Reads e l)
    (hu : u ∈ t.ways known) : u.Reads e l := by
  obtain ⟨x, hx, hcompletes⟩ := h
  cases t with
  | inside lead set rest => simp [Thread.ways] at hu
  | start rank rest =>
    obtain ⟨rest', rfl, hrest⟩ := exists_ofList_of_mem_ways hu
    exact ⟨x, hx, fun y hy => hcompletes y (hrest y hy)⟩

theorem Thread.Reads.readInto {l : List UInt8} {x : List Char} {pending : Option Utf8.Lead}
    {set : CodePoints} {rest : List Expr} {b : UInt8} {u : Thread} (hx : Utf8.Holds l x pending)
    (h : ∀ c y, set.contains c.toNat = true → Expr.MatchesAll rest y → e.Matches (x ++ c :: y))
    (hu : readInto pending set rest b = some u) : u.Reads e (l ++ [b]) := by
  unfold Thread.readInto at hu
  split at hu
  · rename_i c hb
    split at hu
    · rename_i hc
      cases hu
      refine ⟨x ++ [c], hx.char hb, fun y hy => ?_⟩
      rw [List.append_assoc]
      exact h c y hc hy
    · cases hu
  · rename_i lead hb
    split at hu
    · cases hu
      exact ⟨x, hx.lead hb, h⟩
    · cases hu
  · cases hu

theorem Thread.Reads.read {l : List UInt8} {t u : Thread} {b : UInt8} (h : t.Reads e l)
    (hu : t.read b = some u) : u.Reads e (l ++ [b]) := by
  obtain ⟨x, hx, hcompletes⟩ := h
  unfold Thread.read at hu
  split at hu
  · exact readInto hx (fun c y hc hy => hcompletes (c :: y) ⟨[c], y, rfl, .chars hc, hy⟩) hu
  · cases hu
  · exact readInto hx hcompletes hu

/-- What a thread has read that has nothing left to match is a word. -/
theorem Thread.Reads.word {l : List UInt8} {t : Thread} (h : t.Reads e l)
    (hd : t.isDone = true) : ∃ x, Utf8.chars? none l = some x ∧ e.Matches x := by
  obtain ⟨x, hx, hcompletes⟩ := h
  cases t with
  | inside lead set rest => cases hd
  | start rank rest =>
    cases rest with
    | nil =>
      refine ⟨x, hx.chars?, ?_⟩
      have := hcompletes [] rfl
      rwa [List.append_nil] at this
    | cons a k => cases hd

namespace State

/-- All threads of the state have read the bytes `l`, on the way to a word of `e`. -/
def Reads (e : Expr) (l : List UInt8) (s : State) : Prop := ∀ t ∈ s.threads, t.Reads e l

theorem reads_arrive {l : List UInt8} {before : Option UInt8} {threads : List Thread}
    {matched : Bool} (h : ∀ t ∈ threads, t.Reads e l) :
    (arrive before threads matched).Reads e l :=
  forall_spread (fun _ ht _ hu => ht.ways hu) h

theorem reads_init (before : Option UInt8) (e : Expr) : (init before e).Reads e [] := by
  refine reads_arrive fun t ht => ?_
  rw [List.mem_singleton.1 ht]
  refine ⟨[], Utf8.holds_nil, ?_⟩
  rintro y ⟨y₁, _, rfl, h₁, rfl⟩
  rwa [List.append_nil]

theorem Reads.threadsBefore {l : List UInt8} {s : State} (h : s.Reads e l)
    (next : Option UInt8) : ∀ t ∈ s.threadsBefore next, t.Reads e l := by
  unfold State.threadsBefore
  simp only
  split
  · exact forall_spread (fun _ ht _ hu => ht.ways hu) h
  · exact h

/-- Where a thread is done, a word has been read. -/
theorem Reads.word {l : List UInt8} {s : State} (h : s.Reads e l) {next : Option UInt8}
    (hd : (s.threadsBefore next).any Thread.isDone = true) :
    ∃ x, Utf8.chars? none l = some x ∧ e.Matches x := by
  obtain ⟨t, ht, hd⟩ := List.any_eq_true.1 hd
  exact (h.threadsBefore next t ht).word hd

theorem Reads.step {l : List UInt8} {s s' : State} {asciiOnly : Bool} {b : UInt8}
    (h : s.Reads e l) (hs : s.step asciiOnly b = some s') : s'.Reads e (l ++ [b]) := by
  unfold State.step at hs
  split at hs
  · cases hs
  · cases hs
    refine reads_arrive fun u hu => ?_
    obtain ⟨t, ht, htu⟩ := List.mem_filterMap.1 hu
    exact (h.threadsBefore (some b) t ((List.takeWhile_sublist _).subset ht)).read htu

theorem matched_of_step {s s' : State} {asciiOnly : Bool} {b : UInt8}
    (hs : s.step asciiOnly b = some s') :
    s'.matched = (s.threadsBefore (some b)).any Thread.isDone := by
  unfold State.step at hs
  split at hs
  · cases hs
  · cases hs; rfl

end State

end Scan

namespace Pattern

open Scan

/-- What is matched is a word of the pattern, whatever bytes are around it. -/
theorem word_of_matchAt {p : Pattern} {window : List UInt8} {start stop : Nat} {atEnd : Bool}
    (hs : start ≤ window.length) (h : p.matchAt window start atEnd = .ok (.matched stop)) :
    ∃ x, Utf8.chars? none ((window.take stop).drop start) = some x ∧ p.expr.Matches x := by
  have places := places_of_matched hs h
    (I := fun read s last => s.Reads p.expr read ∧ ∀ n, last = some n → n - start ≤ read.length ∧
      ∃ x, Utf8.chars? none (read.take (n - start)) = some x ∧ p.expr.Matches x)
    (fun before => ⟨State.reads_init before p.expr, fun n hn => by cases hn⟩)
    (fun read s last b s' ⟨hI, hlast⟩ hstep => by
      refine ⟨hI.step hstep, fun n hn => ?_⟩
      rw [List.length_append, List.length_singleton]
      by_cases hm : s'.matched = true
      · rw [if_pos hm] at hn
        cases hn
        rw [Nat.add_sub_cancel_left, List.take_left]
        -- a match is reported one byte late: its thread was done before the byte
        rw [State.matched_of_step hstep] at hm
        exact ⟨Nat.le_succ _, hI.word hm⟩
      · -- the last match stays where it was
        rw [if_neg hm] at hn
        obtain ⟨hle, hword⟩ := hlast n hn
        rw [List.take_append_of_le_length hle]
        exact ⟨Nat.le_succ_of_le hle, hword⟩)
  rw [List.drop_take]
  rcases places with ⟨s, last, ⟨hI, -⟩, hend, rfl⟩ | ⟨k, s, hk, -, hlast⟩
  · rw [List.take_of_length_le (Nat.le_of_eq List.length_drop)]
    exact hI.word hend
  · obtain ⟨hle, hword⟩ := hlast stop rfl
    rw [List.length_take] at hle
    rwa [List.take_take, Nat.min_eq_left (by omega)] at hword

/-- So the bytes of a match encode a text. -/
theorem isSome_text?_of_matchAt {p : Pattern} {window : List UInt8} {start stop : Nat}
    {atEnd : Bool} (hs : start ≤ window.length)
    (h : p.matchAt window start atEnd = .ok (.matched stop)) :
    (Utf8.text? ((window.take stop).drop start)).isSome = true := by
  obtain ⟨x, hx, -⟩ := word_of_matchAt hs h
  unfold Utf8.text?
  rw [hx]
  rfl

end Pattern

end StreamParser
