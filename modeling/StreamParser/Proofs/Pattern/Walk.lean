import StreamParser.Proofs.Pattern.Language
import StreamParser.Proofs.Pattern.Streamable

/-!
# Scans with one way to go

In many patterns the next character tells which way to go: of the sets that a scan may go on with,
only one lets the first byte of the character pass.  Such a scan can be followed character by
character.

* `Scan.options rest` are the sets that may go on where `rest` is left to be matched, each with what
  is left after it, and `Scan.accepts rest` says that a match may end there.
* `Scan.walk rest x` is what is left after the characters `x`, if there is one way to go at each.
* `Pattern.Tells p l k st` says that `st` is the answer for the bytes `l`, and that no more than `k`
  of them, or the end after fewer, are needed to tell.  A walk to a place where a match may end tells
  the answer, if the byte that follows lets nothing go on (`Pattern.tells_of_walk`).
-/

namespace StreamParser

/-- Some character of the set may begin with the byte. -/
def CodePoints.lets (set : CodePoints) (b : UInt8) : Bool :=
  match Utf8.begin b with
  | .char c => set.contains c.toNat
  | .lead lead => set.meets lead.low lead.high
  | .invalid => false

/-- The first byte of a character tells the members of the sets apart: they have none in common, and
one of the sets is within ASCII. -/
def CodePoints.isApartFrom (set other : CodePoints) : Bool :=
  (set.below 0x80 || other.below 0x80) &&
    set.ranges.all fun r => other.ranges.all fun q => r.2 < q.1 || q.2 < r.1

namespace CodePoints

variable {set other : CodePoints} {c : Char}

theorem contains_range_iff {a b n : Nat} : (range a b).contains n = true ↔ a ≤ n ∧ n ≤ b := by
  simp [contains, range]

theorem contains_single_iff {c d : Char} : (single c).contains d.toNat = true ↔ d = c := by
  rw [single, contains_range_iff, ← Char.toNat_inj]
  omega

/-- A set meets bounds around one of its characters. -/
theorem meets_of_contains (h : set.contains c.toNat = true) {a b : Nat} (ha : a ≤ c.toNat)
    (hb : c.toNat ≤ b) : set.meets a b = true := by
  obtain ⟨r, hr, hin⟩ := List.any_eq_true.1 h
  simp only [Bool.and_eq_true, decide_eq_true_eq] at hin
  refine List.any_eq_true.2 ⟨r, hr, ?_⟩
  -- the character is no surrogate, so not both bounds of what is common are
  have hvalid : isSurrogate c.toNat = false := by
    rcases c.valid with hc | hc
    · have : c.toNat < 0xD800 := hc
      simp only [isSurrogate, Bool.and_eq_false_iff, decide_eq_false_iff_not]
      omega
    · have : 0xDFFF < c.toNat := hc.1
      simp only [isSurrogate, Bool.and_eq_false_iff, decide_eq_false_iff_not]
      omega
  simp only [isSurrogate, Bool.and_eq_true, Bool.and_eq_false_iff, Bool.not_eq_true',
    decide_eq_true_eq, decide_eq_false_iff_not] at hvalid ⊢
  omega

/-- A set within bounds meets nothing beyond them. -/
theorem not_meets_of_below {bound a b : Nat} (h : set.below bound = true) (ha : bound ≤ a) :
    set.meets a b = false := by
  refine List.any_eq_false.2 fun r hr => ?_
  have := of_decide_eq_true (List.all_eq_true.1 h r hr)
  simp only [Bool.and_eq_true, decide_eq_true_eq, not_and]
  omega

/-- The first byte of a character of the set passes. -/
theorem lets_of_contains (h : set.contains c.toNat = true) {b : UInt8}
    (hb : (String.utf8EncodeChar c).head? = some b) : set.lets b = true := by
  have hspells := Utf8.spells_char c
  revert hspells hb
  generalize String.utf8EncodeChar c = l
  intro hb hspells
  unfold lets
  cases hspells with
  | last hread =>
    cases hb
    rw [show Utf8.begin _ = _ from hread]
    exact h
  | more hread hlow hhigh _ =>
    cases hb
    rw [show Utf8.begin _ = _ from hread]
    exact meets_of_contains h hlow hhigh

/-- A byte of ASCII is a character, and every other byte belongs to characters beyond ASCII. -/
theorem lead_low {b : UInt8} {lead : Utf8.Lead} (h : Utf8.begin b = .lead lead) :
    0x80 ≤ lead.low := by
  have hleast : 0x80 ≤ lead.least := by
    unfold Utf8.begin at h
    split_ifs at h
    all_goals
      obtain rfl := Utf8.Progress.lead.inj h
      simp
  exact Nat.le_trans hleast (Nat.le_max_right _ _)

/-- The first byte of a character that is not in the set does not pass, if the set or the character
is within ASCII. -/
theorem not_lets_of_not_contains (h : set.contains c.toNat = false)
    (hascii : c.toNat < 0x80 ∨ set.below 0x80 = true) {b : UInt8}
    (hb : (String.utf8EncodeChar c).head? = some b) : set.lets b = false := by
  have hspells := Utf8.spells_char c
  revert hspells hb
  generalize String.utf8EncodeChar c = l
  intro hb hspells
  unfold lets
  cases hspells with
  | last hread =>
    cases hb
    rw [show Utf8.begin _ = _ from hread]
    exact h
  | more hread hlow hhigh _ =>
    cases hb
    have hread : Utf8.begin _ = _ := hread
    rw [hread]
    have := lead_low hread
    rcases hascii with hc | hbelow
    · omega
    · exact not_meets_of_below hbelow this

/-- The first byte of a member of one set does not pass the other. -/
theorem not_lets_of_isApartFrom (h : set.isApartFrom other = true)
    (hc : set.contains c.toNat = true) {b : UInt8}
    (hb : (String.utf8EncodeChar c).head? = some b) : other.lets b = false := by
  obtain ⟨hascii, happart⟩ := Bool.and_eq_true_iff.1 h
  obtain ⟨r, hr, hin⟩ := List.any_eq_true.1 hc
  simp only [Bool.and_eq_true, decide_eq_true_eq] at hin
  refine not_lets_of_not_contains ?_ ?_ hb
  · refine List.any_eq_false.2 fun q hq => ?_
    have := List.all_eq_true.1 (List.all_eq_true.1 happart r hr) q hq
    simp only [Bool.or_eq_true, Bool.and_eq_true, decide_eq_true_eq, not_and] at this ⊢
    omega
  · refine (Bool.or_eq_true_iff.1 hascii).imp (fun hbelow => ?_) id
    have := of_decide_eq_true (List.all_eq_true.1 hbelow r hr)
    omega

/-- A byte that does not pass a set does not pass its subsets within ASCII. -/
theorem not_lets_of_subset (hsub : ∀ n, set.contains n = true → other.contains n = true)
    (hbelow : set.below 0x80 = true) {b : UInt8} (hb : other.lets b = false) :
    set.lets b = false := by
  unfold lets at hb ⊢
  cases hread : Utf8.begin b with
  | char c =>
    rw [hread] at hb
    rw [← Bool.not_eq_true] at hb ⊢
    exact fun h => hb (hsub _ h)
  | lead lead => exact not_meets_of_below hbelow (lead_low hread)
  | invalid => rfl

end CodePoints

namespace Scan

/-- The set of which a character has to be read, and what is left after it. -/
def Thread.option? : Thread → Option (CodePoints × List Expr)
  | start _ (.chars set :: rest) => some (set, rest)
  | _ => none

/-- The places that are reached without reading. -/
def places (rest : List Expr) : List Thread := spread (fun _ => false) [.ofList rest]

/-- The sets that may go on where `rest` is left, in order of priority, up to the end of a match. -/
def options (rest : List Expr) : List (CodePoints × List Expr) :=
  ((places rest).takeWhile (!·.isDone)).filterMap Thread.option?

/-- A match may end where `rest` is left. -/
def accepts (rest : List Expr) : Bool := (places rest).any Thread.isDone

/-- What is left after a character, if its first byte tells which way to go. -/
def next (rest : List Expr) (c : Char) : Option (List Expr) :=
  match (options rest).filter fun o => (String.utf8EncodeChar c).head?.any o.1.lets with
  | [(set, rest')] => if set.contains c.toNat then some rest' else none
  | _ => none

/-- What is left after some characters. -/
def walk : List Expr → List Char → Option (List Expr)
  | rest, [] => some rest
  | rest, c :: x => (next rest c).bind (walk · x)

theorem walk_append (rest : List Expr) (x y : List Char) :
    walk rest (x ++ y) = (walk rest x).bind (walk · y) := by
  induction x generalizing rest with
  | nil => rfl
  | cons c x ih =>
    simp only [List.cons_append, walk]
    cases next rest c with
    | none => rfl
    | some rest' => exact ih rest'

theorem walk_cons {rest rest' : List Expr} {c : Char} (h : next rest c = some rest')
    (x : List Char) : walk rest (c :: x) = walk rest' x := by
  simp only [walk, h, Option.bind_some]

/-- A walk that comes back to where it is with each character. -/
theorem walk_loop {rest : List Expr} {x : List Char} (h : ∀ c ∈ x, next rest c = some rest) :
    walk rest x = some rest := by
  induction x with
  | nil => rfl
  | cons c x ih =>
    rw [walk_cons (h c List.mem_cons_self)]
    exact ih fun d hd => h d (List.mem_cons_of_mem c hd)

theorem exists_first_byte (c : Char) : ∃ b, (String.utf8EncodeChar c).head? = some b := by
  cases h : String.utf8EncodeChar c with
  | nil => exact absurd h String.utf8EncodeChar_ne_nil
  | cons b l => exact ⟨b, rfl⟩

/-- The way that a character goes, if the set in which it is can be told apart from the others. -/
theorem next_eq {rest rest' : List Expr} {set : CodePoints}
    (before after : List (CodePoints × List Expr))
    (ho : options rest = before ++ (set, rest') :: after)
    (hothers : ∀ o ∈ before ++ after, set.isApartFrom o.1 = true) {c : Char}
    (hc : set.contains c.toNat = true) : next rest c = some rest' := by
  obtain ⟨b, hb⟩ := exists_first_byte c
  have hnone : ∀ l : List (CodePoints × List Expr), (∀ o ∈ l, o ∈ before ++ after) →
      l.filter (fun o => o.1.lets b) = [] := by
    intro l hl
    refine List.filter_eq_nil_iff.2 fun o ho => ?_
    rw [CodePoints.not_lets_of_isApartFrom (hothers o (hl o ho)) hc hb]
    exact Bool.false_ne_true
  have hfilter : (options rest).filter (fun o => o.1.lets b) = [(set, rest')] := by
    rw [ho, List.filter_append, hnone before fun o ho => List.mem_append_left _ ho]
    simp only [List.filter_cons, CodePoints.lets_of_contains hc hb, if_true, List.nil_append,
      hnone after fun o ho => List.mem_append_right _ ho]
  unfold next
  simp only [hb, Option.any_some, hfilter, hc, if_true]

/-- The set that goes on with a character is the only one that its first byte lets go on. -/
theorem exists_of_next {rest rest' : List Expr} {c : Char} (h : next rest c = some rest') {b : UInt8}
    (hb : (String.utf8EncodeChar c).head? = some b) :
    ∃ set, ((options rest).filter fun o => o.1.lets b) = [(set, rest')] ∧
      set.contains c.toNat = true := by
  unfold next at h
  simp only [hb, Option.any_some] at h
  split at h
  · rename_i set rest'' hfilter
    split at h
    · cases h
      exact ⟨set, hfilter, ‹_›⟩
    · cases h
  · cases h

/-! ### The threads of a walk -/

/-- The threads that are reached without reading stand between two characters. -/
theorem exists_start_of_mem_places {rest : List Expr} {t : Thread} (h : t ∈ places rest) :
    ∃ rank rest', t = .start rank rest' := by
  refine forall_spread (P := fun t => ∃ rank rest', t = .start rank rest') ?_ ?_ t h
  · rintro t ⟨rank, rest', rfl⟩ u hu
    obtain ⟨rest'', rfl, -⟩ := Thread.exists_ofList_of_mem_ways hu
    exact ⟨_, _, rfl⟩
  · intro u hu
    rw [List.mem_singleton.1 hu]
    exact ⟨_, _, rfl⟩

theorem readInto_of_not_lets {set : CodePoints} {b : UInt8} (h : set.lets b = false)
    (rest : List Expr) : Thread.readInto none set rest b = none := by
  unfold CodePoints.lets at h
  unfold Thread.readInto
  rw [show Utf8.read none b = Utf8.begin b from rfl]
  cases hb : Utf8.begin b with
  | char c =>
    rw [hb] at h
    simp only at h ⊢
    rw [if_neg (by rw [h]; exact Bool.false_ne_true)]
  | lead lead =>
    rw [hb] at h
    simp only at h ⊢
    rw [if_neg (by rw [h]; exact Bool.false_ne_true)]
  | invalid => rfl

/-- What the threads make of a byte, in terms of the sets that may go on. -/
theorem readAll_places (rest : List Expr) (b : UInt8) :
    State.readAll b (places rest) = (((options rest).filter fun o => o.1.lets b).filterMap
      fun o => Thread.readInto none o.1 o.2 b, accepts rest) := by
  have hlets : ∀ l : List (CodePoints × List Expr),
      (l.filter fun o => o.1.lets b).filterMap (fun o => Thread.readInto none o.1 o.2 b) =
        l.filterMap fun o => Thread.readInto none o.1 o.2 b := by
    intro l
    induction l with
    | nil => rfl
    | cons o l ih =>
      cases ho : o.1.lets b with
      | false =>
        simp only [List.filter_cons, List.filterMap_cons, ho, readInto_of_not_lets ho,
          Bool.false_eq_true, if_false, ih]
      | true => simp only [List.filter_cons, List.filterMap_cons, ho, if_true, ih]
  have hread : ∀ t ∈ (places rest).takeWhile (!·.isDone), Thread.read b t =
      t.option?.bind fun o => Thread.readInto none o.1 o.2 b := by
    intro t ht
    obtain ⟨rank, k, rfl⟩ := exists_start_of_mem_places ((List.takeWhile_sublist _).subset ht)
    cases k with
    | nil => rfl
    | cons e k => cases e <;> rfl
  unfold State.readAll
  rw [hlets, options, List.filterMap_filterMap]
  exact congrArg (·, accepts rest) (List.filterMap_congr hread)

/-- The scan is where `rest` is left. -/
structure State.IsAt (rest : List Expr) (s : State) : Prop where
  lookFree : ∀ e ∈ rest, e.anyLook (fun _ => true) = false
  threads_eq : s.threads = places rest

namespace State

variable {rest rest' : List Expr} {s s' : State}

/-- Without assertions it does not matter which of them are known. -/
theorem spread_eq_places (h : ∀ e ∈ rest, e.anyLook (fun _ => true) = false)
    (known : Look → Bool) : spread known [.ofList rest] = places rest := by
  refine spread_congr (P := Thread.Lacks fun _ => true)
    (fun _ ht _ hu => Thread.lacks_of_mem_ways ht hu)
    (fun _ ht => Thread.ways_congr (fun l hl => by cases hl) ht) fun t ht => ?_
  rw [List.mem_singleton.1 ht]
  exact h

theorem isAt_arrive (h : ∀ e ∈ rest, e.anyLook (fun _ => true) = false) (before : Option UInt8)
    (matched : Bool) : (arrive before [.ofList rest] matched).IsAt rest :=
  ⟨h, spread_eq_places h _⟩

theorem lacks_places (h : ∀ e ∈ rest, e.anyLook (fun _ => true) = false) :
    ∀ t ∈ places rest, t.Lacks fun _ => true := by
  refine forall_spread (fun _ ht _ hu => Thread.lacks_of_mem_ways ht hu) fun t ht => ?_
  rw [List.mem_singleton.1 ht]
  exact h

theorem IsAt.isLookFree (h : s.IsAt rest) : Pattern.LookFreeState s := by
  intro t ht
  rw [h.threads_eq] at ht
  exact lacks_places h.lookFree t ht

theorem IsAt.endsMatched_eq (h : s.IsAt rest) : s.endsMatched = accepts rest := by
  unfold endsMatched
  rw [Pattern.threadsBefore_of_lookFree h.isLookFree, h.threads_eq]
  rfl

theorem IsAt.read_eq (h : s.IsAt rest) (b : UInt8) :
    s.read b = (((options rest).filter fun o => o.1.lets b).filterMap
      fun o => Thread.readInto none o.1 o.2 b, accepts rest) := by
  unfold State.read
  rw [Pattern.threadsBefore_of_lookFree h.isLookFree, h.threads_eq, readAll_places]

/-- What is left after a set that may go on has no assertions either. -/
theorem lookFree_of_mem_options (h : ∀ e ∈ rest, e.anyLook (fun _ => true) = false)
    {o : CodePoints × List Expr} (ho : o ∈ options rest) :
    ∀ e ∈ o.2, e.anyLook (fun _ => true) = false := by
  obtain ⟨t, ht, hto⟩ := List.mem_filterMap.1 ho
  have hlacks := lacks_places h t ((List.takeWhile_sublist _).subset ht)
  unfold Thread.option? at hto
  split at hto
  · cases hto
    exact fun e he => hlacks e (List.mem_cons_of_mem _ he)
  · cases hto

/-- A thread in the middle of a character reads on or dies. -/
theorem read_inside {lead : Utf8.Lead} {set : CodePoints} (hs : s.threads = [.inside lead set rest])
    (hrest : ∀ e ∈ rest, e.anyLook (fun _ => true) = false) (b : UInt8) :
    s.endsMatched = false ∧
      s.read b = ((Thread.readInto (some lead) set rest b).toList, false) := by
  have hfree : Pattern.LookFreeState s := by
    intro t ht
    rw [hs] at ht
    rw [List.mem_singleton.1 ht]
    exact hrest
  unfold endsMatched read
  rw [Pattern.threadsBefore_of_lookFree hfree, Pattern.threadsBefore_of_lookFree hfree, hs]
  refine ⟨rfl, ?_⟩
  unfold readAll
  simp only [Thread.isDone, Bool.not_false, List.takeWhile_cons, if_true, List.takeWhile_nil,
    List.filterMap_cons, Thread.read, List.filterMap_nil, List.any_cons, List.any_nil,
    Bool.or_self]
  cases Thread.readInto (some lead) set rest b <;> rfl

end State

end Scan

namespace Pattern

open Scan

/-! ### Following a walk -/

/-- A byte that leads on to one thread, when no thread is done. -/
theorem scan_cons_of_read {s : State} {b : UInt8} {u : Thread} {matched : Bool}
    (h : s.read b = ([u], matched)) (offset : Nat) (last : Option Nat) (m : List UInt8) :
    scan false s offset last (b :: m) = scan false (State.arrive (some b) [u] matched) (offset + 1)
      (if matched then some offset else last) m := by
  have hstep : s.step false b = some (State.arrive (some b) [u] matched) := by
    unfold State.step State.isStuckAt
    rw [h]
    rfl
  have hlives : (State.arrive (some b) [u] matched).isDead = false := by
    rw [State.isDead_arrive]
    simp
  have hmatched : (State.arrive (some b) [u] matched).matched = matched := rfl
  simp only [scan, hstep, hmatched, hlives, Bool.false_eq_true, if_false]
  cases matched <;> rfl

/-- In the middle of a character there is no other way to go than to its end. -/
theorem scan_inside {set : CodePoints} {rest : List Expr} {c : Char}
    (hc : set.contains c.toNat = true) (hrest : ∀ e ∈ rest, e.anyLook (fun _ => true) = false)
    {pending : Option Utf8.Lead} {l : List UInt8} (hl : Utf8.Spells pending l c) :
    ∀ {lead : Utf8.Lead}, pending = some lead → ∀ {s : State},
      s.threads = [.inside lead set rest] → ∀ (offset : Nat) (last : Option Nat) (m : List UInt8),
        ∃ s' : State, s'.IsAt rest ∧
          scan false s offset last (l ++ m) = scan false s' (offset + l.length) last m := by
  have hread : ∀ {lead : Utf8.Lead} {s : State} {b : UInt8} {u : Thread},
      s.threads = [.inside lead set rest] →
      Thread.readInto (some lead) set rest b = some u → s.read b = ([u], false) := by
    intro lead s b u hs hu
    rw [(State.read_inside hs hrest b).2, hu]
    rfl
  induction hl with
  | @last pending b c h =>
    rintro lead rfl s hs offset last m
    have hu : Thread.readInto (some lead) set rest b = some (.ofList rest) := by
      unfold Thread.readInto
      rw [h]
      exact if_pos hc
    exact ⟨_, State.isAt_arrive hrest _ _, scan_cons_of_read (hread hs hu) offset last m⟩
  | @more pending b next l c h hlow hhigh hl ih =>
    rintro lead rfl s hs offset last m
    have hu : Thread.readInto (some lead) set rest b = some (.inside next set rest) := by
      unfold Thread.readInto
      rw [h]
      exact if_pos (CodePoints.meets_of_contains hc hlow hhigh)
    obtain ⟨s', hs', hscan⟩ := ih hc rfl (s := State.arrive (some b) [.inside next set rest] false)
      rfl (offset + 1) last m
    refine ⟨s', hs', ?_⟩
    rw [List.cons_append, scan_cons_of_read (hread hs hu), List.length_cons, Nat.add_comm l.length,
      ← Nat.add_assoc]
    exact hscan

/-- A scan goes on with a character to what is left after it. -/
theorem scan_char {rest rest' : List Expr} {c : Char} (h : next rest c = some rest') {s : State}
    (hs : s.IsAt rest) (offset : Nat) (last : Option Nat) (m : List UInt8) :
    ∃ s' : State, s'.IsAt rest' ∧ scan false s offset last (String.utf8EncodeChar c ++ m) =
      scan false s' (offset + (String.utf8EncodeChar c).length)
        (if accepts rest then some offset else last) m := by
  obtain ⟨b, hb⟩ := exists_first_byte c
  obtain ⟨set, hfilter, hc⟩ := exists_of_next h hb
  have hrest : ∀ e ∈ rest', e.anyLook (fun _ => true) = false := by
    have hmem : (set, rest') ∈ (options rest).filter fun o => o.1.lets b := by
      rw [hfilter]
      exact List.mem_singleton.2 rfl
    exact State.lookFree_of_mem_options hs.lookFree (List.mem_of_mem_filter hmem)
  have hread : ∀ u, Thread.readInto none set rest' b = some u →
      s.read b = ([u], accepts rest) := by
    intro u hu
    rw [hs.read_eq, hfilter]
    simp only [List.filterMap_cons, hu, List.filterMap_nil]
  have hspells := Utf8.spells_char c
  revert hspells hb
  generalize String.utf8EncodeChar c = l
  intro hb hspells
  cases hspells with
  | last h =>
    cases hb
    have hu : Thread.readInto none set rest' b = some (.ofList rest') := by
      unfold Thread.readInto
      rw [h]
      exact if_pos hc
    exact ⟨_, State.isAt_arrive hrest _ _, scan_cons_of_read (hread _ hu) offset last m⟩
  | @more _ _ lead l _ h hlow hhigh hl =>
    cases hb
    have hu : Thread.readInto none set rest' b = some (.inside lead set rest') := by
      unfold Thread.readInto
      rw [h]
      exact if_pos (CodePoints.meets_of_contains hc hlow hhigh)
    obtain ⟨s', hs', hscan⟩ := scan_inside hc hrest hl rfl
      (s := State.arrive (some b) [.inside lead set rest'] (accepts rest)) rfl (offset + 1)
      (if accepts rest then some offset else last) m
    refine ⟨s', hs', ?_⟩
    rw [List.cons_append, scan_cons_of_read (hread _ hu), List.length_cons, Nat.add_comm l.length,
      ← Nat.add_assoc]
    exact hscan

/-- A scan follows a walk. -/
theorem scan_walk {rest rest' : List Expr} {x : List Char} (h : walk rest x = some rest')
    {s : State} (hs : s.IsAt rest) (offset : Nat) (last : Option Nat) (m : List UInt8) :
    ∃ (s' : State) (last' : Option Nat), s'.IsAt rest' ∧
      scan false s offset last (Utf8.encode x ++ m) =
        scan false s' (offset + (Utf8.encode x).length) last' m := by
  induction x generalizing rest s offset last with
  | nil =>
    cases h
    exact ⟨s, last, hs, rfl⟩
  | cons c x ih =>
    obtain ⟨rest₁, hnext, hwalk⟩ := Option.bind_eq_some_iff.1 h
    obtain ⟨s₁, hs₁, hchar⟩ := scan_char hnext hs offset last (Utf8.encode x ++ m)
    obtain ⟨s', last', hs', hscan⟩ := ih hwalk hs₁ _ _
    refine ⟨s', last', hs', ?_⟩
    rw [Utf8.encode_cons, List.append_assoc, hchar, hscan, List.length_append, Nat.add_assoc]

/-- Where no set lets a byte pass, the threads are dead after it. -/
theorem read_of_not_lets {rest : List Expr} {s : State} (hs : s.IsAt rest) {b : UInt8}
    (hb : ∀ o ∈ options rest, o.1.lets b = false) : s.read b = ([], accepts rest) := by
  have hfilter : ((options rest).filter fun o => o.1.lets b) = [] :=
    List.filter_eq_nil_iff.2 fun o ho => by
      rw [hb o ho]
      exact Bool.false_ne_true
  rw [hs.read_eq, hfilter]
  rfl

/-- No more than the first `k` of the bytes, or the end after fewer, are needed to tell that the
answer for them is `st`. -/
structure Tells (p : Pattern) (l : List UInt8) (k : Nat) (st : MatchStatus) : Prop where
  pos : 0 < k
  isSettled : st ≠ .needsInput
  inside : k ≤ l.length → p.matchAt (l.take k) 0 false = .ok st
  ended : l.length < k → p.matchAt l 0 true = .ok st

/-- The match of a pattern without assertions at the beginning of a window. -/
theorem IsLookFree.matchAt_start {p : Pattern} (hp : p.IsLookFree) (w : List UInt8)
    (atEnd : Bool) : p.matchAt w 0 atEnd =
      (scan false (State.init none p.expr) 0 none w).answer p.source false w.length atEnd := by
  rw [Pattern.matchAt_eq p w (Nat.zero_le _), hp.asciiOnly]
  rfl

theorem IsLookFree.isAt_init {p : Pattern} (hp : p.IsLookFree) :
    (State.init none p.expr).IsAt [p.expr] :=
  State.isAt_arrive (fun e he => by rw [List.mem_singleton.1 he]; exact hp) _ _

/-- A scan follows a walk to the end of the input. -/
theorem matchAt_of_walk {p : Pattern} (hp : p.IsLookFree) {x : List Char} {rest : List Expr}
    (hx : walk [p.expr] x = some rest) (ha : accepts rest = true) :
    p.matchAt (Utf8.encode x) 0 true = .ok (.matched (Utf8.encode x).length) := by
  obtain ⟨s, last, hs, hscan⟩ := scan_walk hx hp.isAt_init 0 none []
  have hfinal : finalEnd s last (Utf8.encode x).length = some (Utf8.encode x).length := by
    unfold finalEnd
    rw [hs.endsMatched_eq, ha]
    rfl
  rw [List.append_nil] at hscan
  rw [hp.matchAt_start, hscan]
  simp only [scan, Progress.answer, hfinal, Bool.true_or, if_true]
  rfl

/-- A scan that follows a walk ends at a byte that lets nothing go on. -/
theorem matchAt_of_walk_of_not_lets {p : Pattern} (hp : p.IsLookFree) {x : List Char}
    {rest : List Expr} (hx : walk [p.expr] x = some rest) (ha : accepts rest = true) {b : UInt8}
    (hb : ∀ o ∈ options rest, o.1.lets b = false) :
    p.matchAt (Utf8.encode x ++ [b]) 0 false = .ok (.matched (Utf8.encode x).length) := by
  obtain ⟨s, last, hs, hscan⟩ := scan_walk hx hp.isAt_init 0 none [b]
  have hread := read_of_not_lets hs hb
  rw [ha] at hread
  have hstep : s.step false b = some (State.arrive (some b) [] true) := by
    unfold State.step State.isStuckAt
    rw [hread]
    rfl
  -- behind the byte the threads are dead, so every byte leaves the match as it is
  have hdies : ∀ i : UInt8, (State.arrive (some b) [] true).diesAt false i = true := fun _ => rfl
  have hfinal : finalEnd (State.arrive (some b) [] true) (some (Utf8.encode x).length)
      (Utf8.encode x ++ [b]).length = some (Utf8.encode x).length := rfl
  have hsettled : isSettled false (State.arrive (some b) [] true)
      (some (Utf8.encode x).length) (some (Utf8.encode x).length)
      (Utf8.encode x ++ [b]).length = true := by
    unfold Pattern.isSettled
    simp only [hdies, if_true, beq_self_eq_true, List.all_eq_true, implies_true]
  have hmatched : (State.arrive (some b) [] true).matched = true := rfl
  rw [hp.matchAt_start, hscan]
  simp only [scan, hstep, hmatched, if_true, Progress.answer, Nat.zero_add, hfinal, hsettled,
    Bool.or_true]
  rfl

/-- A walk tells the answer where a match may end and nothing can go on. -/
theorem tells_of_walk {p : Pattern} (hp : p.IsLookFree) {x : List Char} {rest : List Expr}
    (hx : walk [p.expr] x = some rest) (ha : accepts rest = true) {m : List UInt8}
    (hm : ∀ b, m.head? = some b → ∀ o ∈ options rest, o.1.lets b = false) :
    p.Tells (Utf8.encode x ++ m) ((Utf8.encode x).length + 1)
      (.matched (Utf8.encode x).length) where
  pos := Nat.succ_pos _
  isSettled := MatchStatus.noConfusion
  inside hk := by
    cases m with
    | nil =>
      rw [List.append_nil] at hk
      omega
    | cons b m =>
      have htake : (Utf8.encode x ++ b :: m).take ((Utf8.encode x).length + 1) =
          Utf8.encode x ++ [b] := by
        rw [List.take_append, List.take_of_length_le (Nat.le_succ _)]
        simp
      rw [htake]
      exact matchAt_of_walk_of_not_lets hp hx ha (hm b rfl)
  ended hk := by
    have hnil : m = [] := by
      rw [List.length_append] at hk
      exact List.eq_nil_of_length_eq_zero (by omega)
    subst hnil
    rw [List.append_nil]
    exact matchAt_of_walk hp hx ha

/-- A byte that lets nothing go on tells that there is no match. -/
theorem tells_noMatch {p : Pattern} (hp : p.IsLookFree) (ha : accepts [p.expr] = false)
    {b : UInt8} (hb : ∀ o ∈ options [p.expr], o.1.lets b = false) (m : List UInt8) :
    p.Tells (b :: m) 1 .noMatch where
  pos := Nat.one_pos
  isSettled := MatchStatus.noConfusion
  inside _ := by
    have hread := read_of_not_lets hp.isAt_init hb
    have hdies : (State.init none p.expr).diesAt false b = true := by
      unfold State.diesAt State.isStuckAt
      rw [hread, ha]
      rfl
    rw [hp.matchAt_start, List.take_succ_cons, scan_cons_of_diesAt hdies]
    rfl
  ended hk := by
    rw [List.length_cons] at hk
    omega

/-- The answer for a window that has all the bytes that are needed. -/
theorem Tells.take {p : Pattern} (hp : p.Streamable) {l : List UInt8} {k : Nat} {st : MatchStatus}
    (h : p.Tells l k st) {n : Nat} (hkn : k ≤ n) (hn : n ≤ l.length) :
    p.matchAt (l.take n) 0 false = .ok st := by
  obtain ⟨d, rfl⟩ := Nat.exists_eq_add_of_le hkn
  rw [List.take_add]
  exact hp.stands _ _ _ (h.inside (by omega)) h.isSettled false

/-- The answer for all the bytes. -/
theorem Tells.whole {p : Pattern} (hp : p.Streamable) {l : List UInt8} {k : Nat} {st : MatchStatus}
    (h : p.Tells l k st) : p.matchAt l 0 true = .ok st := by
  rcases Nat.lt_or_ge l.length k with hk | hk
  · exact h.ended hk
  · have := hp.stands _ (l.drop k) _ (h.inside hk) h.isSettled true
    rwa [List.take_append_drop] at this

end Pattern

end StreamParser
