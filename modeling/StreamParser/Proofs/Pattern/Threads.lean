import Mathlib.Data.List.Basic
import StreamParser.Regex.Scan

/-!
# What all threads of a scan have in common

A property of threads that following and reading keep is one of every thread of every state that a
scan reaches.  The property that serves most often is that a kind of assertions is absent:

* `Thread.Lacks kind` says that no assertion of the kind is left to be matched;
* two sets of known assertions that differ only in what is absent lead the threads the same ways
  (`spread_congr`, `State.threadsBefore_congr`).
-/

namespace StreamParser

namespace Scan

variable {known known' : Look → Bool} {kind : Look → Bool}

/-! ### Following threads -/

theorem follow_nil (n : Nat) (found : List Thread) : follow known n [] found = found := by
  cases n <;> rfl

/-- What is kept on the ways that read nothing holds of all that is found. -/
theorem forall_follow {P : Thread → Prop} (hw : ∀ t, P t → ∀ u ∈ t.ways known, P u) (n : Nat)
    {stack found : List Thread} (hs : ∀ t ∈ stack, P t) (hf : ∀ t ∈ found, P t) :
    ∀ t ∈ follow known n stack found, P t := by
  induction n generalizing stack found with
  | zero => exact hf
  | succ n ih =>
    cases stack with
    | nil => exact hf
    | cons t stack =>
      have ht : P t := hs t List.mem_cons_self
      have hrest : ∀ u ∈ stack, P u := fun u hu => hs u (List.mem_cons_of_mem t hu)
      unfold follow
      split
      · exact ih hrest hf
      · refine ih (fun u hu => ?_) (fun u hu => ?_)
        · rcases List.mem_append.1 hu with hu | hu
          · exact hw t ht u hu
          · exact hrest u hu
        · rcases List.mem_cons.1 hu with rfl | hu
          · exact ht
          · exact hf u hu

theorem forall_spread {P : Thread → Prop} (hw : ∀ t, P t → ∀ u ∈ t.ways known, P u)
    {threads : List Thread} (h : ∀ t ∈ threads, P t) : ∀ t ∈ spread known threads, P t := by
  have hfold : ∀ found : List Thread, (∀ t ∈ found, P t) →
      ∀ t ∈ threads.foldl (fun found t => follow known (2 * t.weight + 1) [t] found) found,
        P t := by
    induction threads with
    | nil => exact fun found hf => hf
    | cons t threads ih =>
      intro found hf
      have ht : ∀ u ∈ [t], P u := fun u hu => h u (List.mem_cons.2 (.inl (List.mem_singleton.1 hu)))
      exact ih (fun u hu => h u (List.mem_cons_of_mem t hu)) _ (forall_follow hw _ ht hf)
  intro t ht
  exact hfold [] (fun u hu => absurd hu List.not_mem_nil) t (List.mem_reverse.1 ht)

/-- If two sets of assertions open the same ways to all threads with a property, they lead to the
same places. -/
theorem follow_congr {P : Thread → Prop} (hw : ∀ t, P t → ∀ u ∈ t.ways known, P u)
    (he : ∀ t, P t → t.ways known = t.ways known') (n : Nat) {stack : List Thread}
    (found : List Thread) (hs : ∀ t ∈ stack, P t) :
    follow known n stack found = follow known' n stack found := by
  induction n generalizing stack found with
  | zero => rfl
  | succ n ih =>
    cases stack with
    | nil => rfl
    | cons t stack =>
      have ht : P t := hs t List.mem_cons_self
      have hrest : ∀ u ∈ stack, P u := fun u hu => hs u (List.mem_cons_of_mem t hu)
      unfold follow
      rw [← he t ht]
      split
      · exact ih _ hrest
      · refine ih _ fun u hu => ?_
        rcases List.mem_append.1 hu with hu | hu
        · exact hw t ht u hu
        · exact hrest u hu

theorem spread_congr {P : Thread → Prop} (hw : ∀ t, P t → ∀ u ∈ t.ways known, P u)
    (he : ∀ t, P t → t.ways known = t.ways known') {threads : List Thread}
    (h : ∀ t ∈ threads, P t) : spread known threads = spread known' threads := by
  have hfold : ∀ found : List Thread,
      threads.foldl (fun found t => follow known (2 * t.weight + 1) [t] found) found =
        threads.foldl (fun found t => follow known' (2 * t.weight + 1) [t] found) found := by
    induction threads with
    | nil => exact fun _ => rfl
    | cons t threads ih =>
      intro found
      have ht : ∀ u ∈ [t], P u := fun u hu => h u (List.mem_cons.2 (.inl (List.mem_singleton.1 hu)))
      simp only [List.foldl_cons]
      rw [follow_congr hw he _ found ht]
      exact ih (fun u hu => h u (List.mem_cons_of_mem t hu)) _
  unfold spread
  rw [hfold]

/-! ### Absent assertions -/

namespace Thread

/-- No assertion of the kind is left to be matched. -/
def Lacks (kind : Look → Bool) : Thread → Prop
  | start _ rest => ∀ e ∈ rest, e.anyLook kind = false
  | inside _ _ rest => ∀ e ∈ rest, e.anyLook kind = false

@[simp] theorem lacks_ofList {rest : List Expr} :
    (ofList rest).Lacks kind ↔ ∀ e ∈ rest, e.anyLook kind = false := Iff.rfl

theorem lacks_of_mem_ways {t u : Thread} (h : t.Lacks kind) (hu : u ∈ t.ways known) :
    u.Lacks kind := by
  cases t with
  | inside lead set rest => simp [ways] at hu
  | start rank rest =>
    cases rest with
    | nil => simp [ways] at hu
    | cons e k =>
      obtain ⟨he, hk⟩ := List.forall_mem_cons.1 h
      cases e with
      | empty =>
        rw [List.mem_singleton.1 hu]
        exact hk
      | chars set => simp [ways] at hu
      | look l =>
        simp only [ways] at hu
        split at hu
        · rw [List.mem_singleton.1 hu]
          exact hk
        · exact absurd hu List.not_mem_nil
      | seq a b =>
        obtain ⟨ha, hb⟩ := Bool.or_eq_false_iff.1 he
        rw [List.mem_singleton.1 hu]
        exact List.forall_mem_cons.2 ⟨ha, List.forall_mem_cons.2 ⟨hb, hk⟩⟩
      | alt a b =>
        obtain ⟨ha, hb⟩ := Bool.or_eq_false_iff.1 he
        rcases List.mem_pair.1 hu with rfl | rfl
        · exact List.forall_mem_cons.2 ⟨ha, hk⟩
        · exact List.forall_mem_cons.2 ⟨hb, hk⟩
      | rep greedy least most e =>
        -- one more time, and what is left of the repetition after it
        have again : ∀ m n, (ofList (e :: .rep greedy m n e :: k)).Lacks kind := fun m n =>
          List.forall_mem_cons.2 ⟨he, List.forall_mem_cons.2 ⟨he, hk⟩⟩
        cases least with
        | succ least =>
          rw [List.mem_singleton.1 hu]
          exact again _ _
        | zero =>
          rcases most with _ | _ | n
          · cases greedy <;> rcases List.mem_pair.1 hu with rfl | rfl <;>
              first | exact again _ _ | exact hk
          · rw [List.mem_singleton.1 hu]
            exact hk
          · cases greedy <;> rcases List.mem_pair.1 hu with rfl | rfl <;>
              first | exact again _ _ | exact hk

theorem lacks_of_readInto {pending : Option Utf8.Lead} {set : CodePoints} {rest : List Expr}
    {b : UInt8} {u : Thread} (h : ∀ e ∈ rest, e.anyLook kind = false)
    (hu : readInto pending set rest b = some u) : u.Lacks kind := by
  unfold readInto at hu
  split at hu
  · split at hu
    · cases hu; exact h
    · cases hu
  · split at hu
    · cases hu; exact h
    · cases hu
  · cases hu

theorem lacks_of_read {t u : Thread} {b : UInt8} (h : t.Lacks kind) (hu : t.read b = some u) :
    u.Lacks kind := by
  unfold read at hu
  split at hu
  · exact lacks_of_readInto (fun e he => h e (List.mem_cons_of_mem _ he)) hu
  · cases hu
  · exact lacks_of_readInto h hu

/-- A thread waits at no assertion of an absent kind. -/
theorem not_kind_of_look? {t : Thread} {l : Look} (h : t.Lacks kind) (hl : t.look? = some l) :
    kind l = false := by
  unfold look? at hl
  split at hl
  · cases hl
    exact h _ List.mem_cons_self
  · cases hl

theorem ways_congr (hk : ∀ l, kind l = false → known l = known' l) {t : Thread}
    (h : t.Lacks kind) : t.ways known = t.ways known' := by
  unfold ways
  split <;> try rfl
  rename_i l rest
  rw [hk l (h _ List.mem_cons_self)]

end Thread

namespace State

/-- No thread has an assertion of the kind left. -/
def Lacks (kind : Look → Bool) (s : State) : Prop := ∀ t ∈ s.threads, t.Lacks kind

theorem lacks_arrive {before : Option UInt8} {threads : List Thread} {matched : Bool}
    (h : ∀ t ∈ threads, t.Lacks kind) : (arrive before threads matched).Lacks kind :=
  forall_spread (fun _ ht _ hu => Thread.lacks_of_mem_ways ht hu) h

theorem lacks_init {e : Expr} (h : e.anyLook kind = false) (before : Option UInt8) :
    (init before e).Lacks kind := by
  refine lacks_arrive fun t ht => ?_
  rw [List.mem_singleton.1 ht]
  simpa using h

theorem lacks_threadsBefore {s : State} (h : s.Lacks kind) (next : Option UInt8) :
    ∀ t ∈ s.threadsBefore next, t.Lacks kind := by
  unfold threadsBefore
  simp only
  split
  · exact forall_spread (fun _ ht _ hu => Thread.lacks_of_mem_ways ht hu) h
  · exact h

theorem lacks_step {s s' : State} {asciiOnly : Bool} {b : UInt8} (h : s.Lacks kind)
    (hs : s.step asciiOnly b = some s') : s'.Lacks kind := by
  unfold step at hs
  split at hs
  · cases hs
  · cases hs
    refine lacks_arrive fun u hu => ?_
    obtain ⟨t, ht, htu⟩ := List.mem_filterMap.1 hu
    exact Thread.lacks_of_read
      (lacks_threadsBefore h (some b) t ((List.takeWhile_sublist _).subset ht)) htu

/-- What comes next matters only to the assertions that are left. -/
theorem threadsBefore_congr {s : State} (h : s.Lacks kind) {next next' : Option UInt8}
    (hk : ∀ l, kind l = false → l.holds s.before next = l.holds s.before next') :
    s.threadsBefore next = s.threadsBefore next' := by
  have hnew : (s.threads.any fun t => t.look?.any fun l =>
        l.holds s.before next && !l.holdsAfter s.before) =
      s.threads.any fun t => t.look?.any fun l =>
        l.holds s.before next' && !l.holdsAfter s.before := by
    rw [Bool.eq_iff_iff, List.any_eq_true, List.any_eq_true]
    refine exists_congr fun t => and_congr_right fun ht => ?_
    cases hl : t.look? with
    | none => rfl
    | some l => simp only [Option.any_some, hk l (Thread.not_kind_of_look? (h t ht) hl)]
  have hspread : spread (·.holds s.before next) s.threads =
      spread (·.holds s.before next') s.threads :=
    spread_congr (fun _ ht _ hu => Thread.lacks_of_mem_ways ht hu)
      (fun _ ht => Thread.ways_congr hk ht) h
  unfold threadsBefore
  simp only
  rw [hnew, hspread]

end State

end Scan

end StreamParser
