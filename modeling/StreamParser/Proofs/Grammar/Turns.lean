import StreamParser.Proofs.Grammar.CursorSteps
import StreamParser.Proofs.Grammar.Deepening
import StreamParser.Proofs.Pattern.Progress

/-!
# Progress

A run over a cursor goes on in the text and never goes back.

* `Cursor.Reaches c d` says so of two places, `Action.Advances x` of a part of a run.  Each way to
  put parts together keeps it (`Advances.bind`, `Advances.attempt`, `Advances.many`, ...), so it is
  true of every grammar (`Grammar.advances_run`).
* `Action.turns` are the turns of a loop.  All of them but the last have moved on
  (`Action.goesOn_of_mem_dropLast`), so there are no more of them than places in the text
  (`Action.length_turns`).
* `Grammar.Repeats` describes each repetition as a head and a loop, and
  `Grammar.repetitions_progress` says of all of them that their loops end.
-/

namespace StreamParser

/-! ### Places -/

/-- The place `d` is in the text of `c`, and not before `c`. -/
structure Cursor.Reaches (c d : Cursor) : Prop where
  bytes_eq : d.bytes = c.bytes
  le : c.position ≤ d.position
  le_length : d.position ≤ d.bytes.length

namespace Cursor.Reaches

variable {c d e : Cursor}

theorem refl (h : c.position ≤ c.bytes.length) : c.Reaches c := ⟨rfl, Nat.le_refl _, h⟩

theorem trans (h : c.Reaches d) (h' : d.Reaches e) : c.Reaches e :=
  ⟨h'.bytes_eq.trans h.bytes_eq, Nat.le_trans h.le h'.le, h'.le_length⟩

/-- Whoever comes back from a place is in the text again. -/
theorem back (h : c.Reaches d) (hc : c.position ≤ c.bytes.length) :
    c.Reaches { d with position := c.position } :=
  ⟨h.bytes_eq, Nat.le_refl _, by rw [h.bytes_eq]; exact hc⟩

end Cursor.Reaches

namespace Action

variable {ν α β : Type} {x y : Action Cursor ν α}

/-! ### Parts of a run -/

/-- From every place in the text the part goes on in the text, whether it succeeds or fails. -/
def Advances (x : Action Cursor ν α) : Prop :=
  ∀ s r t, s.input.position ≤ s.input.bytes.length → x s = some (r, t) → s.input.Reaches t.input

theorem advances_pure (a : α) : Advances (pure a : Action Cursor ν α) := by
  intro s r t hs h
  cases h
  exact .refl hs

theorem advances_fail (e : ParseError) : Advances (fail e : Action Cursor ν α) := by
  intro s r t hs h
  cases h
  exact .refl hs

/-- A match ends in the text, and not before it begins. -/
theorem advances_matchPattern (p : Pattern) :
    Advances (matchPattern p : Action Cursor ν String) := by
  intro s r t hs h
  cases h
  show s.input.Reaches (s.input.matchPattern p).2
  unfold Cursor.matchPattern
  split
  · exact .refl hs
  · rename_i stop hmatch
    split
    · obtain ⟨hstart, hstop⟩ := Pattern.matchAt_le hs hmatch
      exact ⟨rfl, hstart, hstop⟩
    · exact .refl hs
  · exact .refl hs

theorem Advances.bind {f : α → Action Cursor ν β} (hx : Advances x) (hf : ∀ a, Advances (f a)) :
    Advances (bind x f) := by
  intro s r t hs h
  rcases hr : x s with _ | ⟨e | a, u⟩
  · unfold Action.bind at h
    rw [hr] at h
    cases h
  · rw [bind_of_error hr] at h
    cases h
    exact hx s _ _ hs hr
  · rw [bind_of_ok hr] at h
    have hreaches := hx s _ _ hs hr
    exact hreaches.trans (hf a u r t hreaches.le_length h)

theorem Advances.mapError (hx : Advances x) (f : ParseError → ParseError) :
    Advances (mapError f x) := by
  intro s r t hs h
  unfold Action.mapError at h
  rcases hr : x s with _ | ⟨e | a, u⟩ <;> rw [hr] at h <;> cases h <;> exact hx s _ _ hs hr

theorem Advances.remark (hx : Advances x) (tell : Moment → Nat → List ν) :
    Advances (remark tell x) := by
  intro s r t hs h
  have hpart := hx ⟨s.input, (tell .entry (Input.position s.input)).reverse ++ s.journal⟩
  unfold Action.remark at h
  simp only at h
  split at h
  · cases h
  · rename_i a u hr
    cases h
    exact hpart _ u hs hr
  · rename_i e u hr
    cases h
    exact hpart _ u hs hr

/-- A failed attempt comes back to where it began. -/
theorem Advances.attempt (hx : Advances x) : Advances (attempt x) := by
  intro s r t hs h
  obtain ⟨⟨e | a, u⟩, hr⟩ := exists_of_attempt_cursor h
  · rw [attempt_cursor_error hr] at h
    cases h
    exact (hx s _ _ hs hr).back hs
  · rw [attempt_cursor_ok hr] at h
    cases h
    exact hx s _ _ hs hr

/-- Over a cursor a transaction is no more than what is in it. -/
theorem Advances.transaction (hx : Advances x) : Advances (transaction x) := hx

theorem Advances.orElse (hx : Advances x) (hy : Advances y) : Advances (orElse x y) := by
  intro s r t hs h
  unfold Action.orElse at h
  rcases hr : Action.attempt x s with _ | ⟨e | a, u⟩ <;> rw [hr] at h
  · cases h
  · have hreaches := hx.attempt s _ _ hs hr
    by_cases he : e.isRecoverable = true
    · simp only [if_pos he] at h
      exact hreaches.trans (hy u r t hreaches.le_length h)
    · simp only [if_neg he] at h
      cases h
      exact hreaches
  · cases h
    exact hx.attempt s _ _ hs hr

/-- Over a cursor there is no place to give up. -/
theorem Advances.letGo (hx : Advances x) : Advances (letGo x) := hx

theorem Advances.commit (hx : Advances x) : Advances (commit x) :=
  fun s => hx.letGo.mapError (ParseError.afterCommit (Input.position s.input)) s

theorem Advances.times (hx : Advances x) (n : Nat) : Advances (times x n) := by
  induction n with
  | zero => exact advances_pure []
  | succ n ih => exact hx.bind fun a => ih.bind fun l => advances_pure (a :: l)

theorem Advances.many (hx : Advances x) (most : Option Nat) (n : Nat) :
    Advances (many x most n) := by
  induction n generalizing most with
  | zero =>
    intro s r t _ h
    cases h
  | succ n ih =>
    intro s r t hs h
    by_cases hmost : most = some 0
    · rw [hmost, many_of_spent] at h
      cases h
      exact .refl hs
    obtain ⟨⟨e | a, u⟩, hr⟩ := exists_of_many hmost h
    · rw [many_of_error hmost hr] at h
      cases h
      exact (hx s _ _ hs hr).back hs
    · have hreaches := hx s _ _ hs hr
      by_cases hstays : u.input.position = s.input.position
      · rw [many_of_stays hmost hr hstays] at h
        cases h
        exact hreaches
      · rw [many_of_moves hmost hr hstays] at h
        have hrest := (ih (most.map (· - 1))).bind fun l => advances_pure (a :: l)
        exact hreaches.trans (hrest u r t hreaches.le_length h)

/-! ### Turns of a loop -/

/-- A turn of a loop: the session in which it begins, and what comes of it. -/
structure Turn (ν α : Type) where
  before : Session Cursor ν
  result : Option (Except ParseError α × Session Cursor ν)

namespace Turn

/-- The item that the turn adds. -/
def item? (turn : Turn ν α) : Option α :=
  match turn.result with
  | some (.ok a, _) => some a
  | _ => none

/-- The turn adds an item, for which it has consumed something. -/
def GoesOn (turn : Turn ν α) : Prop :=
  ∃ a t, turn.result = some (.ok a, t) ∧ turn.before.input.position < t.input.position

end Turn

/-- The turns of the loop `many x most n`: attempts of `x`, each of which begins where the one before
it has ended. -/
def turns (x : Action Cursor ν α) : (most : Option Nat) → Nat → Session Cursor ν → List (Turn ν α)
  | _, 0, _ => []
  | most, n + 1, s =>
    if most = some 0 then []
    else
      ⟨s, attempt x s⟩ ::
        match attempt x s with
        | some (.ok _, t) =>
          if t.input.position = s.input.position then [] else turns x (most.map (· - 1)) n t
        | _ => []

variable {s : Session Cursor ν}

/-- The first turn, and those after it. -/
theorem turns_succ (x : Action Cursor ν α) (most : Option Nat) (n : Nat) (s : Session Cursor ν) :
    turns x most (n + 1) s =
      if most = some 0 then []
      else
        ⟨s, attempt x s⟩ ::
          match attempt x s with
          | some (.ok _, t) =>
            if t.input.position = s.input.position then [] else turns x (most.map (· - 1)) n t
          | _ => [] := rfl

/-- There is no turn, or one that is the last, or one that goes on and the turns after it. -/
theorem turns_cases (x : Action Cursor ν α) (most : Option Nat) (n : Nat) (s : Session Cursor ν) :
    turns x most n s = [] ∨ turns x most n s = [⟨s, attempt x s⟩] ∨
      ∃ k a t, n = k + 1 ∧ attempt x s = some (.ok a, t) ∧
        t.input.position ≠ s.input.position ∧
        turns x most n s = ⟨s, some (.ok a, t)⟩ :: turns x (most.map (· - 1)) k t := by
  cases n with
  | zero => exact .inl rfl
  | succ n =>
    rw [turns_succ]
    by_cases hmost : most = some 0
    · exact .inl (if_pos hmost)
    · rw [if_neg hmost]
      rcases hs : attempt x s with _ | ⟨e | a, t⟩
      · exact .inr (.inl rfl)
      · exact .inr (.inl rfl)
      · by_cases hstill : t.input.position = s.input.position
        · exact .inr (.inl (by simp only [if_pos hstill]))
        · refine .inr (.inr ⟨n, a, t, rfl, rfl, hstill, ?_⟩)
          simp only [if_neg hstill]

/-- A loop has at most one turn for each place from where it begins to the end of the text. -/
theorem length_turns (hx : Advances x) (most : Option Nat) (n : Nat)
    (hs : s.input.position ≤ s.input.bytes.length) :
    (turns x most n s).length + s.input.position ≤ s.input.bytes.length + 1 := by
  induction n generalizing most s with
  | zero => exact Nat.le_succ_of_le (by rwa [turns, List.length_nil, Nat.zero_add])
  | succ n ih =>
    rcases turns_cases x most (n + 1) s with h | h | ⟨k, a, t, hk, hattempt, hmoved, h⟩
    · rw [h, List.length_nil]
      omega
    · rw [h, List.length_singleton]
      omega
    · obtain rfl : n = k := Nat.succ.inj hk
      -- the other turns begin at least one place further
      have hreaches := hx.attempt s _ _ hs hattempt
      have hrest := ih (most.map (· - 1)) hreaches.le_length
      have hle := hreaches.le
      rw [hreaches.bytes_eq] at hrest
      rw [h, List.length_cons]
      omega

/-- Every turn of a loop but the last adds an item for which it has consumed something. -/
theorem goesOn_of_mem_dropLast (hx : Advances x) (most : Option Nat) (n : Nat)
    (hs : s.input.position ≤ s.input.bytes.length) :
    ∀ turn ∈ (turns x most n s).dropLast, turn.GoesOn := by
  induction n generalizing most s with
  | zero => exact fun turn h => nomatch h
  | succ n ih =>
    rcases turns_cases x most (n + 1) s with h | h | ⟨k, a, t, hk, hattempt, hmoved, h⟩
    · rw [h]
      exact fun turn h => nomatch h
    · rw [h]
      exact fun turn h => nomatch h
    · obtain rfl : n = k := Nat.succ.inj hk
      have hreaches := hx.attempt s _ _ hs hattempt
      have hgoes : Turn.GoesOn ⟨s, some (.ok a, t)⟩ :=
        ⟨a, t, rfl, Nat.lt_of_le_of_ne hreaches.le (Ne.symm hmoved)⟩
      rw [h]
      intro turn hturn
      rcases hrest : turns x (most.map (· - 1)) n t with _ | ⟨next, rest⟩
      · rw [hrest] at hturn
        exact nomatch hturn
      · rw [hrest, List.dropLast_cons_cons] at hturn
        rcases List.mem_cons.1 hturn with rfl | hturn
        · exact hgoes
        · refine ih (most.map (· - 1)) hreaches.le_length turn ?_
          rw [hrest]
          exact hturn

/-- The items of a loop are those that its turns add. -/
theorem items_of_many {most : Option Nat} {n : Nat} {l : List α} {u : Session Cursor ν}
    (h : many x most n s = some (.ok l, u)) : l = (turns x most n s).filterMap Turn.item? := by
  induction n generalizing most s l with
  | zero => cases h
  | succ n ih =>
    rw [turns_succ]
    by_cases hmost : most = some 0
    · rw [hmost, many_of_spent] at h
      cases h
      rw [if_pos hmost]
      rfl
    rw [if_neg hmost]
    obtain ⟨⟨e | a, t⟩, hx⟩ := exists_of_many hmost h
    · rw [many_of_error hmost hx] at h
      rw [attempt_cursor_error hx]
      cases he : e.isRecoverable <;> simp only [he] at h <;> cases h
      rfl
    · rw [attempt_cursor_ok hx]
      by_cases hstays : t.input.position = s.input.position
      · rw [many_of_stays hmost hx hstays] at h
        cases h
        simp only [if_pos hstays]
        rfl
      · rw [many_of_moves hmost hx hstays] at h
        obtain ⟨r, v, hrest, hr⟩ := exists_of_bind_pure h
        simp only [if_neg hstays]
        rcases r with e | l'
        · cases hr
        · cases hr
          rw [ih hrest]
          rfl

/-! ### Laws of sequences -/

theorem bind_pure (x : Action Cursor ν α) : bind x pure = x := by
  funext s
  unfold bind
  rcases x s with _ | ⟨e | a, t⟩ <;> rfl

end Action

/-! ### Grammars -/

namespace Grammar

open StreamParser.Action (Advances Turn turns)

variable {ρ υ ν α β : Type}

/-- A grammar goes on in the text if its rules do. -/
theorem advances_action {rules : ρ → Action Cursor ν υ} (hrules : ∀ r, Advances (rules r))
    (bound : Nat) (g : Grammar ρ υ ν α) : Advances (action rules bound g) := by
  induction g with
  | pattern p =>
    cases p with
    | ok p => exact Action.advances_matchPattern p
    | error e => exact Action.advances_fail _
  | succeed a => exact Action.advances_pure a
  | fail e => exact Action.advances_fail e
  | bind g next ihg ihnext => exact ihg.bind ihnext
  | transaction g ih => exact ih.transaction
  | attempt g ih => exact ih.attempt
  | orElse g h ihg ihh => exact ihg.orElse ihh
  | label m g ih => exact ih.mapError _
  | commit g ih => exact ih.commit
  | letGo g ih => exact ih.letGo
  | rule r => exact hrules r
  | times n g ih => exact ih.times n
  | many most g ih => exact ih.many most bound
  | remark tell g ih => exact ih.remark tell

theorem advances_ruleAction (rules : ρ → Grammar ρ υ ν υ) (bound n : Nat) (r : ρ) :
    Advances (ruleAction rules bound n r : Action Cursor ν υ) := by
  induction n generalizing r with
  | zero =>
    intro s a t _ h
    cases h
  | succ n ih => exact advances_action ih bound (rules r)

/-- The run of a grammar goes on in the text. -/
theorem advances_run (rules : ρ → Grammar ρ υ ν υ) (bound : Nat) (g : Grammar ρ υ ν α) :
    Advances (run rules bound g : Action Cursor ν α) :=
  advances_action (advances_ruleAction rules bound bound) bound g

/-! ### Repetitions -/

/-- A repetition: a head, which may also say that nothing is repeated, and a loop that adds items to
the outputs of the head. -/
structure Loop (ρ υ ν α : Type) where
  head : Grammar ρ υ ν (Option (List α))
  item : Grammar ρ υ ν α
  most : Option Nat

/-- Read what comes after the head. -/
def Loop.rest (L : Loop ρ υ ν α) : Option (List α) → Grammar ρ υ ν (List α)
  | some first => (many L.most L.item).map (first ++ ·)
  | none => succeed []

/-- Read the head, and then the items of the loop. -/
def Loop.grammar (L : Loop ρ υ ν α) : Grammar ρ υ ν (List α) := L.head.bind L.rest

/-- The repetitions of things that `g` reads, with things that `separator` reads between them if that
is what they ask for, and their heads and loops. -/
inductive Repeats (g : Grammar ρ υ ν α) (separator : Grammar ρ υ ν β) :
    Grammar ρ υ ν (List α) → Loop ρ υ ν α → Prop
  | zeroOrMore : Repeats g separator (zeroOrMore g) ⟨succeed (some []), g, none⟩
  | oneOrMore : Repeats g separator (oneOrMore g) ⟨(exactly 1 g).map some, g, none⟩
  | atLeast (least : Nat) :
    Repeats g separator (atLeast least g) ⟨(exactly least g).map some, g, none⟩
  | between {least most : Nat} {h : Grammar ρ υ ν (List α)}
    (hh : Grammar.between least most g = .ok h) :
    Repeats g separator h ⟨(exactly least g).map some, g, some (most - least)⟩
  | separatedByOneOrMore : Repeats g separator (separatedByOneOrMore g separator)
      ⟨(attempt g).map fun a => some [a], separator.skipLeft g, none⟩
  | separatedByZeroOrMore : Repeats g separator (separatedByZeroOrMore g separator)
      ⟨g.zeroOrOne.map (Option.map fun a => [a]), separator.skipLeft g, none⟩

/-- To change an output and go on with it is to go on with the changed output. -/
theorem action_map_bind (rules : ρ → Action Cursor ν υ) (bound : Nat) (g : Grammar ρ υ ν α)
    {γ : Type} (f : α → γ) (next : γ → Grammar ρ υ ν β) :
    action rules bound ((g.map f).bind next) = action rules bound (g.bind fun a => next (f a)) := by
  funext s
  simp only [action, map, Action.bind]
  rcases action rules bound g s with _ | ⟨e | a, t⟩ <;> rfl

/-- Each repetition does what its head and its loop do. -/
theorem Repeats.action_eq {g : Grammar ρ υ ν α} {separator : Grammar ρ υ ν β}
    {h : Grammar ρ υ ν (List α)} {L : Loop ρ υ ν α} (hL : Repeats g separator h L)
    (rules : ρ → Action Cursor ν υ) (bound : Nat) :
    action rules bound h = action rules bound L.grammar := by
  have hrequired : ∀ (n : Nat) (most : Option Nat),
      action rules bound ((exactly n g).bind fun first => (many most g).map (first ++ ·)) =
        action rules bound (Loop.grammar ⟨(exactly n g).map some, g, most⟩) :=
    fun n most => (action_map_bind rules bound (exactly n g) some (Loop.rest ⟨_, g, most⟩)).symm
  cases hL with
  | zeroOrMore => exact (Action.bind_pure _).symm
  | oneOrMore => exact hrequired 1 none
  | atLeast least => exact hrequired least none
  | @between least most h hh =>
    unfold Grammar.between at hh
    split at hh
    · cases hh
    · cases hh
      exact hrequired least (some (most - least))
  | separatedByOneOrMore =>
    exact (action_map_bind rules bound (attempt g) (fun a => some [a])
      (Loop.rest ⟨_, separator.skipLeft g, none⟩)).symm
  | separatedByZeroOrMore =>
    refine Eq.trans ?_ (action_map_bind rules bound g.zeroOrOne (Option.map fun a => [a])
      (Loop.rest ⟨_, separator.skipLeft g, none⟩)).symm
    unfold Grammar.separatedByZeroOrMore
    congr 2
    funext first
    cases first <;> rfl

/-! ### Answers -/

/-- From every place that is reached from `c` the run of the grammar comes to an answer. -/
def AnswersFrom (rules : ρ → Grammar ρ υ ν υ) (c : Cursor) (g : Grammar ρ υ ν α) : Prop :=
  ∀ t : Session Cursor ν, c.Reaches t.input → ∃ n r, run rules n g t = some r

namespace AnswersFrom

variable {rules : ρ → Grammar ρ υ ν υ} {c : Cursor} {g : Grammar ρ υ ν α}

theorem succeed (a : α) : AnswersFrom rules c (succeed a) := fun t _ => ⟨0, (.ok a, t), rfl⟩

theorem bind {next : α → Grammar ρ υ ν β} (hg : AnswersFrom rules c g)
    (hnext : ∀ a, AnswersFrom rules c (next a)) : AnswersFrom rules c (g.bind next) := by
  intro t ht
  obtain ⟨n, ⟨e | a, u⟩, hr⟩ := hg t ht
  · exact ⟨n, _, Action.bind_of_error hr _⟩
  · have hu := ht.trans (advances_run rules n g t _ _ ht.le_length hr)
    obtain ⟨m, r, hm⟩ := hnext a u hu
    -- the bound has to be enough for both
    have hr := run_extends rules (Nat.le_max_left n m) g t _ hr
    have hm := run_extends rules (Nat.le_max_right n m) (next a) u r hm
    exact ⟨max n m, r, (Action.bind_of_ok hr _).trans hm⟩

theorem map (hg : AnswersFrom rules c g) (f : α → β) : AnswersFrom rules c (g.map f) :=
  hg.bind fun a => succeed (f a)

theorem attempt (hg : AnswersFrom rules c g) : AnswersFrom rules c (attempt g) := by
  intro t ht
  obtain ⟨n, ⟨e | a, u⟩, hr⟩ := hg t ht
  · exact ⟨n, _, Action.attempt_cursor_error hr⟩
  · exact ⟨n, _, Action.attempt_cursor_ok hr⟩

theorem zeroOrOne (hg : AnswersFrom rules c g) : AnswersFrom rules c (zeroOrOne g) := by
  intro t ht
  obtain ⟨n, ⟨e | a, u⟩, hr⟩ := hg.map some t ht
  · by_cases he : e.isRecoverable = true
    · exact ⟨n, _, (Action.orElse_cursor_error hr).trans (if_pos he)⟩
    · exact ⟨n, _, (Action.orElse_cursor_error hr).trans (if_neg he)⟩
  · exact ⟨n, _, Action.orElse_cursor_ok hr⟩

/-- Over a cursor a transaction is no more than what is in it. -/
theorem skipLeft {separator : Grammar ρ υ ν β} (hseparator : AnswersFrom rules c separator)
    (hg : AnswersFrom rules c g) : AnswersFrom rules c (separator.skipLeft g) :=
  hseparator.bind fun _ => hg

theorem exactly (hg : AnswersFrom rules c g) (n : Nat) : AnswersFrom rules c (exactly n g) := by
  induction n with
  | zero => exact fun t _ => ⟨0, (.ok [], t), rfl⟩
  | succ n ih => exact hg.bind fun a => ih.map (a :: ·)

/-- A loop ends, since each turn but the last consumes something. -/
theorem many (hg : AnswersFrom rules c g) (most : Option Nat) :
    AnswersFrom rules c (many most g) := by
  intro t ht
  -- what is left of the text becomes shorter
  induction hleft : c.bytes.length - t.input.position using Nat.strongRecOn
    generalizing t most with
  | _ left ih =>
    by_cases hmost : most = some 0
    · exact ⟨1, (.ok [], t), if_pos hmost⟩
    obtain ⟨n, ⟨e | a, u⟩, hr⟩ := hg t ht
    · have hr := run_extends rules (Nat.le_succ n) g t _ hr
      exact ⟨n + 1, _, Action.many_of_error hmost hr n⟩
    have hreaches := advances_run rules n g t _ _ ht.le_length hr
    by_cases hstays : u.input.position = t.input.position
    · have hr := run_extends rules (Nat.le_succ n) g t _ hr
      exact ⟨n + 1, _, Action.many_of_stays hmost hr hstays n⟩
    · have hu := ht.trans hreaches
      have hshorter : c.bytes.length - u.input.position < left := by
        have hle := hu.le_length
        have hmoved := hreaches.le
        rw [hu.bytes_eq] at hle
        omega
      obtain ⟨m, r, hm⟩ := ih _ hshorter (most.map (· - 1)) u hu rfl
      -- the bound has to be enough for this turn and for those after it
      have hr := run_extends rules (m := max n m + 1) (by omega) g t _ hr
      have hrest : Action.many (run rules (max n m + 1) g) (most.map (· - 1)) (max n m) u =
          some r :=
        Action.Extends.many (run_extends rules (by omega) g) _ (Nat.le_max_right n m) u r hm
      have hloop := Action.many_of_moves hmost hr hstays (max n m)
      rcases r with ⟨e | l, v⟩
      · exact ⟨max n m + 1, _, hloop.trans (Action.bind_of_error hrest _)⟩
      · exact ⟨max n m + 1, _, hloop.trans (Action.bind_of_ok hrest _)⟩

end AnswersFrom

/-- A repetition of what answers answers. -/
theorem Repeats.answersFrom {g : Grammar ρ υ ν α} {separator : Grammar ρ υ ν β}
    {h : Grammar ρ υ ν (List α)} {L : Loop ρ υ ν α} (hL : Repeats g separator h L)
    {rules : ρ → Grammar ρ υ ν υ} {c : Cursor} (hg : AnswersFrom rules c g)
    (hseparator : AnswersFrom rules c separator) : AnswersFrom rules c h := by
  have hrequired : ∀ (n : Nat) (most : Option Nat), AnswersFrom rules c
      ((exactly n g).bind fun first => (many most g).map (first ++ ·)) :=
    fun n most => (hg.exactly n).bind fun first => (hg.many most).map (first ++ ·)
  have htail : ∀ first, AnswersFrom rules c (separatedTail g separator first) :=
    fun first => ((hseparator.skipLeft hg).many none).map (first :: ·)
  cases hL with
  | zeroOrMore => exact hg.many none
  | oneOrMore => exact hrequired 1 none
  | atLeast least => exact hrequired least none
  | @between least most h hh =>
    unfold Grammar.between at hh
    split at hh
    · cases hh
    · cases hh
      exact hrequired least (some (most - least))
  | separatedByOneOrMore => exact hg.attempt.bind htail
  | separatedByZeroOrMore =>
    refine hg.zeroOrOne.bind fun first => ?_
    cases first with
    | some first => exact htail first
    | none => exact .succeed []

/-- What a repetition gives are the outputs of its head and the items of its loop. -/
theorem Repeats.items {g : Grammar ρ υ ν α} {separator : Grammar ρ υ ν β}
    {h : Grammar ρ υ ν (List α)} {L : Loop ρ υ ν α} (hL : Repeats g separator h L)
    {rules : ρ → Grammar ρ υ ν υ} {bound : Nat} {s t u : Session Cursor ν} {first items : List α}
    (hhead : run rules bound L.head s = some (.ok (some first), t))
    (hrun : run rules bound h s = some (.ok items, u)) :
    items = first ++ (turns (run rules bound L.item) L.most bound t).filterMap Turn.item? := by
  have hloop : run rules bound L.grammar s = some (.ok items, u) :=
    (congrFun (hL.action_eq _ bound) s).symm.trans hrun
  have hrest := (Action.bind_of_ok hhead fun o => run rules bound (L.rest o)).symm.trans hloop
  obtain ⟨r, v, hmany, hr⟩ := Action.exists_of_bind_pure hrest
  rcases r with e | l
  · cases hr
  · cases hr
    exact congrArg (first ++ ·) (Action.items_of_many hmany)

/-- **Repetition ends and makes progress.**  Let a repetition begin at a place in a text, which it does
by its head.

Every run from that place ends at a place in the text that is not before it.  The loop of the
repetition has at most one turn for each place that is left, all of its turns but the last add items
for which something has been consumed, and no other items are added to those of the head.  So if what
is repeated and what separates it come to an answer from every place further on, then so does the
repetition. -/
theorem repetitions_progress (rules : ρ → Grammar ρ υ ν υ) {g : Grammar ρ υ ν α}
    {separator : Grammar ρ υ ν β} {h : Grammar ρ υ ν (List α)} {L : Loop ρ υ ν α}
    (hL : Repeats g separator h L) {s : Session Cursor ν}
    (hs : s.input.position ≤ s.input.bytes.length) :
    (∀ {γ : Type} (k : Grammar ρ υ ν γ) bound r t, run rules bound k s = some (r, t) →
      s.input.Reaches t.input) ∧
    (∀ bound first t, run rules bound L.head s = some (.ok (some first), t) →
      (turns (run rules bound L.item) L.most bound t).length ≤
          s.input.bytes.length - s.input.position + 1 ∧
        (∀ turn ∈ (turns (run rules bound L.item) L.most bound t).dropLast, turn.GoesOn) ∧
        ∀ items u, run rules bound h s = some (.ok items, u) →
          items = first ++ (turns (run rules bound L.item) L.most bound t).filterMap Turn.item?) ∧
    (AnswersFrom rules s.input g → AnswersFrom rules s.input separator →
      ∃ bound r, run rules bound h s = some r) := by
  refine ⟨fun k bound r t => advances_run rules bound k s r t hs, fun bound first t hhead => ?_,
    fun hg hseparator => hL.answersFrom hg hseparator s (.refl hs)⟩
  have hreaches := advances_run rules bound L.head s _ _ hs hhead
  have hitem : Advances (run rules bound L.item : Action Cursor ν α) :=
    advances_run rules bound L.item
  refine ⟨?_, Action.goesOn_of_mem_dropLast hitem _ _ hreaches.le_length,
    fun items u => hL.items hhead⟩
  have hlength := Action.length_turns hitem L.most bound hreaches.le_length
  rw [hreaches.bytes_eq] at hlength
  have hle := hreaches.le
  omega

/-- Letters `a`, or none. -/
def lettersA : Grammar Empty Unit Empty String :=
  pattern (.ok ⟨"a*", .rep true 0 none (.chars (.single 'a'))⟩)

/-- The beginning of a text with two letters `a`, and then another letter. -/
def beforeTwoA : Session Cursor Empty := ⟨.start "aab", []⟩

/-- There are at most four turns, and the repetition ends. -/
theorem lettersA_repeated :
    beforeTwoA.input.position ≤ beforeTwoA.input.bytes.length ∧
      (turns (run Empty.elim 4 lettersA) none 4 beforeTwoA).length ≤ 4 ∧
      ∃ bound r, run Empty.elim bound (zeroOrMore lettersA) beforeTwoA = some r := by
  have hs : beforeTwoA.input.position ≤ beforeTwoA.input.bytes.length := by decide
  have hanswers : AnswersFrom Empty.elim beforeTwoA.input lettersA := fun t _ => ⟨0, _, rfl⟩
  have hrepeats : Repeats lettersA lettersA (zeroOrMore lettersA)
      ⟨succeed (some []), lettersA, none⟩ := .zeroOrMore
  obtain ⟨-, hturns, hends⟩ := repetitions_progress Empty.elim hrepeats hs
  exact ⟨hs, (hturns 4 [] beforeTwoA rfl).1, hends hanswers hanswers⟩

/-- The letters are read in the first turn, and nothing in the second, which is the last. -/
example : (turns (run Empty.elim 4 lettersA) none 4 beforeTwoA).map
    (fun turn => (turn.before.input.position, turn.item?)) = [(0, some "aa"), (2, some "")] := by
  decide +kernel

end Grammar

end StreamParser
