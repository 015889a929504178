import StreamParser.Proofs.Pattern.Escaping
import StreamParser.Proofs.Pattern.Walk

/-!
# Literals

A literal is matched by the bytes of its text and by nothing else, and its answer is given as soon
as it can be told.

The scan for a literal goes one way.  `Scan.State.Awaits m` says of a state that the bytes `m` lead
it to a match and that every other byte leads it to death:

* so a scan that awaits bytes gives the answer that comparing these with the window gives
  (`Pattern.answer_of_awaits`);
* the scan for a literal starts by awaiting the bytes of its text (`Scan.State.awaits_letters`),
  also within a character: there is one byte to go on with, since all the others lead to other
  characters or to none (`Scan.Thread.readInto_single`).
-/

namespace StreamParser

open Pattern (letters)

namespace Scan

variable {known : Look → Bool}

/-! ### The places of a literal -/

/-- A thread with one way on, which has none. -/
theorem spread_singleton {t u : Thread} (ht : t.ways known = [u]) (hu : u.ways known = [])
    (hne : u ≠ t) (hw : t.weight ≠ 0) : spread known [t] = [t, u] := by
  obtain ⟨w, hw⟩ := Nat.exists_eq_succ_of_ne_zero hw
  have hfuel : 2 * t.weight + 1 = 2 * w + 1 + 1 + 1 := by omega
  unfold spread
  rw [List.foldl_cons, hfuel]
  simp only [follow, List.not_mem_nil, if_false, ht, hu, List.singleton_append, List.nil_append,
    List.mem_singleton, hne, follow_nil, List.foldl_nil]
  rfl

/-- What is left of a literal after its first character. -/
def afterFirst : List Char → List Expr
  | [] => []
  | x => [letters x]

theorem options_letters_cons (c : Char) (x : List Char) :
    options [letters (c :: x)] = [(.single c, afterFirst x)] ∧ accepts [letters (c :: x)] = false := by
  cases x with
  | nil => exact ⟨rfl, rfl⟩
  | cons d x =>
    have hplaces : places [letters (c :: d :: x)] =
        [.ofList [letters (c :: d :: x)],
          .ofList [.chars (.single c), letters (d :: x)]] := by
      refine spread_singleton rfl rfl (fun h => ?_) (Nat.succ_ne_zero _)
      simp only [Thread.ofList, Thread.start.injEq, List.cons.injEq] at h
      cases h.2.2
    unfold options accepts
    rw [hplaces]
    exact ⟨rfl, rfl⟩

/-- Nothing of a literal is left, or its text is empty. -/
theorem options_of_over {rest : List Expr} (h : rest = [letters []] ∨ rest = []) :
    options rest = [] ∧ accepts rest = true := by
  rcases h with rfl | rfl <;> exact ⟨rfl, rfl⟩

theorem lookFree_letters (x : List Char) : (letters x).anyLook (fun _ => true) = false := by
  induction x with
  | nil => rfl
  | cons c x ih =>
    cases x with
    | nil => rfl
    | cons d x => exact ih

theorem lookFree_afterFirst (x : List Char) :
    ∀ e ∈ afterFirst x, e.anyLook (fun _ => true) = false := by
  intro e he
  cases x with
  | nil => cases he
  | cons c x =>
    rw [List.mem_singleton.1 he]
    exact lookFree_letters _

/-! ### One character -/

namespace Thread

variable {pending : Option Utf8.Lead} {b : UInt8} {c : Char} {rest : List Expr}

/-- Where one character is to be read, what goes on is a byte on the way to it. -/
theorem readInto_single (h : ¬ Utf8.Admits pending b c) :
    readInto pending (.single c) rest b = none := by
  unfold readInto
  cases hb : Utf8.read pending b with
  | char d =>
    refine if_neg fun hd => h (.inl ?_)
    rw [hb, CodePoints.contains_single_iff.1 hd]
  | lead lead =>
    refine if_neg fun hmeets => h (.inr ⟨lead, hb, ?_⟩)
    simp only [CodePoints.single, CodePoints.range, CodePoints.meets, List.any_cons, List.any_nil,
      Bool.or_false, Bool.and_eq_true, decide_eq_true_eq] at hmeets
    omega
  | invalid => rfl

end Thread

namespace State

variable {rest : List Expr}

/-! ### Waiting for bytes -/

/-- The bytes `m` lead to a match, and every other byte leads to death. -/
def Awaits : List UInt8 → State → Prop
  | [], s => s.endsMatched = true ∧ ∀ b, s.read b = ([], true)
  | b :: m, s => s.endsMatched = false ∧
      (∃ u, s.read b = ([u], false) ∧ Awaits m (arrive (some b) [u] false)) ∧
      ∀ d, d ≠ b → s.read d = ([], false)

/-- A state that reads into one character awaits the bytes that are missing, and then what is
awaited behind it. -/
theorem awaits_character {pending : Option Utf8.Lead} {l m : List UInt8} {c : Char}
    (hl : Utf8.Spells pending l c) (hrest : ∀ e ∈ rest, e.anyLook (fun _ => true) = false)
    (hm : ∀ s' : State, s'.IsAt rest → s'.Awaits m) {s : State} (hends : s.endsMatched = false)
    (hread : ∀ b, s.read b = ((Thread.readInto pending (.single c) rest b).toList, false)) :
    s.Awaits (l ++ m) := by
  have hothers : ∀ {pending : Option Utf8.Lead} {b d : UInt8}, Utf8.Admits pending b c → d ≠ b →
      Thread.readInto pending (.single c) rest d = none :=
    fun hb hd => Thread.readInto_single fun h => hd (h.unique hb)
  have hc := CodePoints.contains_single_iff.2 (rfl : c = c)
  induction hl generalizing s with
  | @last pending b c h =>
    refine ⟨hends, ⟨.ofList rest, ?_, hm _ (isAt_arrive hrest _ _)⟩, fun d hd => ?_⟩
    · rw [hread, Thread.readInto, h]
      simp only [hc, if_true]
      rfl
    · rw [hread, hothers (.inl h) hd]
      rfl
  | @more pending b lead l c h hlow hhigh hl ih =>
    have hmeets := CodePoints.meets_of_contains hc hlow hhigh
    refine ⟨hends, ⟨.inside lead (.single c) rest, ?_, ?_⟩, fun d hd => ?_⟩
    · rw [hread, Thread.readInto, h]
      simp only [hmeets, if_true]
      rfl
    · have hinside := read_inside (s := arrive (some b) [.inside lead (.single c) rest] false) rfl
        hrest
      exact ih (hinside 0).1 (fun b => (hinside b).2) hothers hc
    · rw [hread, hothers (.inr ⟨lead, h, hlow, hhigh⟩) hd]
      rfl

/-- Where a literal is left, or what comes after the first character of one, its bytes are
awaited. -/
theorem awaits_letters {x : List Char} {rest : List Expr}
    (hrest : rest = [letters x] ∨ rest = afterFirst x) {s : State} (hs : s.IsAt rest) :
    s.Awaits (Utf8.encode x) := by
  induction x generalizing rest s with
  | nil =>
    obtain ⟨hoptions, haccepts⟩ := options_of_over hrest
    refine ⟨by rw [hs.endsMatched_eq, haccepts], fun b => ?_⟩
    rw [hs.read_eq, hoptions, haccepts]
    rfl
  | cons c x ih =>
    obtain rfl : rest = [letters (c :: x)] := by
      rcases hrest with rfl | rfl <;> rfl
    obtain ⟨hoptions, haccepts⟩ := options_letters_cons c x
    rw [Utf8.encode_cons]
    refine awaits_character (Utf8.spells_char c) (lookFree_afterFirst x)
      (fun s' hs' => ih (.inr rfl) hs') (by rw [hs.endsMatched_eq, haccepts]) fun b => ?_
    rw [hs.read_eq, hoptions, haccepts]
    cases hlets : CodePoints.lets (.single c) b with
    | false =>
      rw [readInto_of_not_lets hlets]
      simp only [List.filter_cons, hlets, Bool.false_eq_true, if_false]
      rfl
    | true =>
      simp only [List.filter_cons, hlets, if_true, List.filter_nil, List.filterMap_cons,
        List.filterMap_nil]
      cases Thread.readInto none (.single c) (afterFirst x) b <;> rfl

end State

end Scan

namespace Pattern

open Scan

/-! ### The answer -/

/-- Behind the end of a match every byte leads to death, so the match is the answer. -/
theorem answer_of_over {s : State} (hs : ∀ b, s.read b = ([], true)) (b : UInt8) (source : String)
    (n : Nat) (l : List UInt8) (atEnd : Bool) :
    (scan false s n none (b :: l)).answer source false (n + (b :: l).length) atEnd =
      .ok (.matched n) := by
  have hstep : s.step false b = some (State.arrive (some b) [] true) := by
    unfold State.step State.isStuckAt
    rw [hs]
    rfl
  have hbarren : (State.arrive (some b) [] true).isBarren false = true := rfl
  have hscan : scan false s n none (b :: l) =
      scan false (State.arrive (some b) [] true) (n + 1) (some n) l := by
    have hmatched : (State.arrive (some b) [] true).matched = true := rfl
    simp only [scan, hstep, hmatched, if_true]
  rw [hscan]
  cases l with
  | nil =>
    have hfinal : ∀ k, finalEnd (State.arrive (some b) [] true) (some n) k = some n := fun _ => rfl
    simp only [scan, Progress.answer, hfinal, isSettled_of_isBarren hbarren, beq_self_eq_true,
      Bool.or_true, if_true]
    rfl
  | cons d l =>
    rw [scan_cons_of_diesAt (State.diesAt_of_isBarren hbarren d)]
    rfl

/-- A match is settled where every byte reports it and leads to death. -/
theorem isSettled_of_over {s : State} (hs : ∀ b, s.read b = ([], true)) (last : Option Nat)
    (n : Nat) : isSettled false s last (some n) n = true := by
  refine List.all_eq_true.2 fun i _ => ?_
  have hdies : s.diesAt false (UInt8.ofNat i) = false := by
    unfold State.diesAt
    rw [hs]
    simp
  have hstep : s.step false (UInt8.ofNat i) =
      some (State.arrive (some (UInt8.ofNat i)) [] true) := by
    unfold State.step State.isStuckAt
    rw [hs]
    rfl
  have hbarren : (State.arrive (some (UInt8.ofNat i)) [] true).isBarren false = true := rfl
  have hmatched : (State.arrive (some (UInt8.ofNat i)) [] true).matched = true := rfl
  simp only [hdies, Bool.false_eq_true, if_false, hstep, Option.any_some, hmatched, hbarren,
    beq_self_eq_true, Bool.and_self]

/-- Nothing is settled where some byte goes on. -/
theorem not_isSettled_of_read {s : State} {b : UInt8} {u : Thread}
    (hs : s.read b = ([u], false)) (last final : Option Nat) (n : Nat) :
    isSettled false s last final n = false := by
  rw [← Bool.not_eq_true]
  intro h
  rcases cases_of_isSettled h b with ⟨hdies, -⟩ | ⟨next, hstep, hmatched, -⟩
  · unfold State.diesAt at hdies
    rw [hs] at hdies
    simp at hdies
  · rw [State.matched_of_step hstep] at hmatched
    have : (s.read b).2 = true := hmatched
    rw [hs] at this
    cases this

/-- The answer of a scan that awaits bytes is read off the bytes that come. -/
theorem answer_of_awaits (source : String) (atEnd : Bool) (w : List UInt8) {m : List UInt8}
    {s : State} (hs : s.Awaits m) (offset : Nat) :
    (scan false s offset none w).answer source false (offset + w.length) atEnd =
      .ok (if m <+: w then .matched (offset + m.length)
        else if atEnd = false ∧ w <+: m then .needsInput else .noMatch) := by
  induction w generalizing m s offset with
  | nil =>
    cases m with
    | nil =>
      obtain ⟨hends, hread⟩ := hs
      have hfinal : finalEnd s none (offset + 0) = some (offset + 0) := if_pos hends
      simp only [scan, Progress.answer, List.length_nil, hfinal, isSettled_of_over hread,
        Bool.or_true, if_true, List.prefix_rfl]
      rfl
    | cons b m =>
      obtain ⟨hends, ⟨u, hread, -⟩, -⟩ := hs
      have hfinal : finalEnd s none (offset + 0) = none := by
        unfold finalEnd
        rw [hends]
        rfl
      simp only [scan, Progress.answer, List.length_nil, hfinal, not_isSettled_of_read hread,
        Bool.or_false, List.prefix_nil, reduceCtorEq, if_false, List.nil_prefix, and_true]
      cases atEnd <;> rfl
  | cons d w ih =>
    cases m with
    | nil =>
      rw [if_pos List.nil_prefix]
      exact answer_of_over hs.2 d source offset w atEnd
    | cons b m =>
      obtain ⟨-, ⟨u, hread, hrest⟩, hothers⟩ := hs
      by_cases hd : d = b
      · subst hd
        have hlength : offset + (d :: w).length = offset + 1 + w.length := by
          rw [List.length_cons]
          omega
        have hlength' : offset + (d :: m).length = offset + 1 + m.length := by
          rw [List.length_cons]
          omega
        rw [scan_cons_of_read hread, hlength, hlength']
        simp only [Bool.false_eq_true, if_false, List.prefix_cons_inj]
        exact ih hrest (offset + 1)
      · have hdies : s.diesAt false d = true := by
          unfold State.diesAt State.isStuckAt
          rw [hothers d hd]
          rfl
        have hne : ∀ {l l' : List UInt8}, ¬ d :: l <+: b :: l' := fun h =>
          hd (List.cons_prefix_cons.1 h).1
        have hne' : ∀ {l l' : List UInt8}, ¬ b :: l <+: d :: l' := fun h =>
          hd (List.cons_prefix_cons.1 h).1.symm
        rw [scan_cons_of_diesAt hdies, if_neg hne', if_neg fun h => hne h.2]
        rfl

/-- **Literals.**  From a place in a window on a literal is matched if the bytes of its text come
there, and its match ends behind them, whatever follows.  More input is asked for only where the
window, which is not the end of the input, ends within these bytes.  In all other cases there is no
match. -/
theorem literal_matches_its_text {t : String} {p : Pattern} (hp : literal t = .ok p)
    (w : List UInt8) {start : Nat} (hs : start ≤ w.length) (atEnd : Bool) :
    p.matchAt w start atEnd =
      .ok (if Utf8.bytes t <+: w.drop start then .matched (start + (Utf8.bytes t).length)
        else if atEnd = false ∧ w.drop start <+: Utf8.bytes t then .needsInput else .noMatch) := by
  rw [literal_eq] at hp
  obtain rfl := Except.ok.inj hp
  have hfree : ∀ e ∈ [letters t.toList], e.anyLook (fun _ => true) = false := by
    intro e he
    rw [List.mem_singleton.1 he]
    exact lookFree_letters _
  have hlength : start + (w.drop start).length = w.length := by
    rw [List.length_drop]
    omega
  have hscan : ∀ before, (scan false (State.init before (letters t.toList)) start none
      (w.drop start)).answer (escape t) false w.length atEnd = _ := fun before =>
    hlength ▸ answer_of_awaits (escape t) atEnd (w.drop start)
      (State.awaits_letters (.inl rfl) (State.isAt_arrive hfree before false)) start
  have hascii : asciiOnly ⟨escape t, letters t.toList⟩ = false :=
    IsLookFree.asciiOnly (lookFree_letters _)
  rw [matchAt_eq _ w hs, hascii]
  cases byteBefore w start with
  | none => exact hscan none
  | some b => exact hscan (some b)

/-- A sum whose last character has two bytes is matched behind what comes before it, at the end of
the window; where the window ends between the two, more input is needed, unless there is none; and
the plus sign means nothing but itself. -/
theorem literal_sum_matched :
    ∃ p, literal "a+é" = .ok p ∧
      p.matchAt [0x78, 0x61, 0x2B, 0xC3, 0xA9] 1 false = .ok (.matched 5) ∧
      p.matchAt [0x61, 0x2B, 0xC3] 0 false = .ok .needsInput ∧
      p.matchAt [0x61, 0x2B, 0xC3] 0 true = .ok .noMatch ∧
      p.matchAt [0x61, 0x61, 0xC3, 0xA9] 0 false = .ok .noMatch := by
  have hp : literal "a+é" = .ok ⟨escape "a+é", letters "a+é".toList⟩ := literal_eq _
  refine ⟨_, hp, ?_, ?_, ?_, ?_⟩
  · rw [literal_matches_its_text hp _ (by decide) false]
    decide
  · rw [literal_matches_its_text hp _ (by decide) false]
    decide
  · rw [literal_matches_its_text hp _ (by decide) true]
    decide
  · rw [literal_matches_its_text hp _ (by decide) false]
    decide

end Pattern

end StreamParser
